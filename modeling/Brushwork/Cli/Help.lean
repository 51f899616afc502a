import Brushwork.Cli.Options

/-!
# Pages of help
-/

namespace Brushwork.Cli

/-- The lines of a page. -/
def Topic.lines : Topic → List String
  | .overview =>
    ["usage: pixelwalle.py [-h] [-v] \x7bcheck,ast,run,gui\x7d ...",
      "",
      "PixelWalle CLI",
      "",
      "positional arguments:",
      "  \x7bcheck,ast,run,gui\x7d",
      "    check              Report diagnostics for a .pw file as JSON",
      "    ast                Print the parsed program tree",
      "    run                Execute a program, optionally one chunk at a time",
      "    gui                Open the GUI editor",
      "",
      "options:",
      "  -h, --help           show this help message and exit",
      "  -v, --verbose        Log debug output to stderr"]
  | .check =>
    ["usage: pixelwalle.py check [-h] file",
      "",
      "positional arguments:",
      "  file        Path to the program",
      "",
      "options:",
      "  -h, --help  show this help message and exit"]
  | .ast =>
    ["usage: pixelwalle.py ast [-h] file",
      "",
      "positional arguments:",
      "  file        Path to the program",
      "",
      "options:",
      "  -h, --help  show this help message and exit"]
  | .run =>
    ["usage: pixelwalle.py run [-h] [--width WIDTH] [--height HEIGHT]",
      "                         [--start-line START_LINE]",
      "                         [--lines-to-process LINES_TO_PROCESS] [--state STATE]",
      "                         [--input-image INPUT_IMAGE] [--output OUTPUT]",
      "                         [--base64] [--debug-view] [--reset]",
      "                         file",
      "",
      "positional arguments:",
      "  file                  Path to the program",
      "",
      "options:",
      "  -h, --help            show this help message and exit",
      "  --width WIDTH",
      "  --height HEIGHT",
      "  --start-line START_LINE",
      "  --lines-to-process LINES_TO_PROCESS",
      "                        Statement budget for this chunk (-1 runs to the end)",
      "  --state STATE         JSON file holding state and pixels between chunks",
      "  --input-image INPUT_IMAGE",
      "                        PNG to load onto the canvas before running",
      "  --output OUTPUT       Write the final canvas as PNG",
      "  --base64              Include the PNG as base64 in the output",
      "  --debug-view          Include a letter map of the canvas",
      "  --reset               Ignore any saved state"]
  | .gui =>
    ["usage: pixelwalle.py gui [-h] [file]",
      "",
      "positional arguments:",
      "  file        Optional program to load",
      "",
      "options:",
      "  -h, --help  show this help message and exit"]

def Topic.page (t : Topic) : String := "\n".intercalate t.lines ++ "\n"

end Brushwork.Cli
