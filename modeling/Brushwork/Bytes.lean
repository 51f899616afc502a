/-!
# Byte strings
-/

namespace Brushwork

/-- The content of a file, or the pixels of a grid. -/
abbrev Bytes := Array UInt8

end Brushwork
