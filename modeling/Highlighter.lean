import Highlighter.File.Folder
import Highlighter.Main
import Highlighter.Proofs.Acceptance
import Highlighter.Proofs.Highlighting
import Highlighter.Proofs.Session
import Highlighter.Proofs.Spans
import Highlighter.Proofs.Repaint
import Highlighter.Proofs.LineBreaks
import Highlighter.Proofs.Strokes
import Highlighter.Proofs.KeySearch
import Highlighter.Proofs.Drawing
import Highlighter.Proofs.QuotedKeys
import Highlighter.Proofs.ErrorPlaces
import Highlighter.Proofs.Messages
import Highlighter.Proofs.Verdict
import Highlighter.Proofs.Viable
import Highlighter.Proofs.Comments
import Highlighter.Proofs.Attempts
import Highlighter.Proofs.Salvage
import Highlighter.Proofs.Debounce
import Highlighter.Proofs.Settling
import Highlighter.Proofs.ErrorLines
import Highlighter.Proofs.ShownErrors
import Highlighter.Proofs.Limits
import Highlighter.Proofs.Overlays
import Highlighter.Proofs.Evidence
import Highlighter.Proofs.PatternPaint
import Highlighter.Proofs.PlainEntries
import Highlighter.Proofs.History
import Highlighter.Proofs.Clamping
import Highlighter.Proofs.Literals
import Highlighter.Proofs.Terminal
import Highlighter.Proofs.Pieces
import Highlighter.Proofs.Collapsing
import Highlighter.Proofs.Edits
import Highlighter.Proofs.Tiling
