import PuzzleShell.Proofs.Tree.WellFormed
import PuzzleShell.Session
import PuzzleShell.Tree.Template
import PuzzleShell.Proofs.Shell.Edits
import PuzzleShell.Proofs.Shell.Place
import PuzzleShell.Proofs.Session.Invariants
import PuzzleShell.Proofs.Session.Erasure
import PuzzleShell.Proofs.Session.Replay
import PuzzleShell.Proofs.Size.Range
import PuzzleShell.Proofs.Tree.Success
import PuzzleShell.Proofs.Tree.Usage
import PuzzleShell.Proofs.Shell.Foreseen
import PuzzleShell.Proofs.Shell.Totality
import PuzzleShell.Proofs.Shell.Batch
import PuzzleShell.Proofs.Shell.Writers
import PuzzleShell.Proofs.Shell.Removals
import PuzzleShell.Proofs.Shell.Editing
import PuzzleShell.Proofs.Session.Packages
import PuzzleShell.Proofs.Session.Hints
import PuzzleShell.Proofs.Session.Winning
import PuzzleShell.Proofs.Session.Restart
import PuzzleShell.Proofs.Shell.Echoes
import PuzzleShell.Proofs.Tree.Writes
import PuzzleShell.Proofs.Tree.Replacement
import PuzzleShell.Proofs.Shell.Moving
import PuzzleShell.Proofs.Shell.Clearing
import PuzzleShell.Proofs.Path.NormalForm
import PuzzleShell.Proofs.Shell.Spelling
import PuzzleShell.Proofs.Shell.Modes
import PuzzleShell.Proofs.Shell.Scripts
import PuzzleShell.Proofs.Path.Joining
import PuzzleShell.Proofs.Tree.Traversal
import PuzzleShell.Proofs.Shell.Finding
import PuzzleShell.Proofs.Shell.Space
import PuzzleShell.Proofs.Shell.Measuring
import PuzzleShell.Proofs.Completion
import PuzzleShell.Proofs.Shell.Flags
import PuzzleShell.Proofs.Size.Blocks
import PuzzleShell.Proofs.Completion.Entries
import PuzzleShell.Proofs.Completion.Cycling
import PuzzleShell.Proofs.Shell.Searching
import PuzzleShell.Proofs.Tree.Keys
import PuzzleShell.Proofs.Shell.Versions
import PuzzleShell.Proofs.Size.Accuracy
import PuzzleShell.Proofs.Shell.Respacing
import PuzzleShell.Proofs.Shell.Arrangement
import PuzzleShell.Proofs.Path.Splitting
import PuzzleShell.Proofs.Tree.Survival
import PuzzleShell.Proofs.Session.Atomicity
import PuzzleShell.Proofs.Shell.Quoting
