import Brushwork.Canvas.Draw
import Brushwork.Cli.Command
import Brushwork.Cli.Help
import Brushwork.Machine.Run
import Brushwork.Machine.Snapshot
import Brushwork.Main
import Brushwork.Proofs.Accepted
import Brushwork.Proofs.Atomicity
import Brushwork.Proofs.Chunks
import Brushwork.Proofs.Easel
import Brushwork.Proofs.Effect
import Brushwork.Proofs.Encoding
import Brushwork.Proofs.Evaluation
import Brushwork.Proofs.Grammar
import Brushwork.Proofs.Inference
import Brushwork.Proofs.Lines
import Brushwork.Proofs.ParserCompleteness
import Brushwork.Proofs.ParserSoundness
import Brushwork.Proofs.Restoration
import Brushwork.Proofs.Session
import Brushwork.Proofs.Soundness
import Brushwork.Proofs.Structure
import Brushwork.Proofs.Typed
import Brushwork.Proofs.Walk
import Brushwork.Source
import Brushwork.Tree.Outline
import Brushwork.Proofs.LexicalRules
import Brushwork.Proofs.Lexing
import Brushwork.Proofs.Clipping
import Brushwork.Proofs.Isolation
import Brushwork.Proofs.LikePrograms
import Brushwork.Proofs.Scanning
import Brushwork.Proofs.Layout
import Brushwork.Proofs.Diagnostics
import Brushwork.Proofs.Region
import Brushwork.Proofs.Storage
import Brushwork.Proofs.Writers
import Brushwork.Proofs.JsonText
import Brushwork.Proofs.JsonValue
import Brushwork.Proofs.Joined
import Brushwork.Proofs.Keeping
import Brushwork.Proofs.Measuring
import Brushwork.Proofs.Unfit
import Brushwork.Proofs.Survival
import Brushwork.Proofs.Finality
import Brushwork.Proofs.Outlines
import Brushwork.Proofs.Rendering
import Brushwork.Proofs.ClosedForms
import Brushwork.Proofs.Arithmetic
import Brushwork.Proofs.Suggestions
import Brushwork.Proofs.Unambiguity
import Brushwork.Proofs.RootCauses
import Brushwork.Proofs.Tallies
import Brushwork.Proofs.ColorText
