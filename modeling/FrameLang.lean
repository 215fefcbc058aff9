import FrameLang.Frame.Selection
import FrameLang.Frame.Sorting
import FrameLang.Main
import FrameLang.Proofs.Conversions
import FrameLang.Proofs.Frame.Appending
import FrameLang.Proofs.Frame.ColumnOrder
import FrameLang.Proofs.Frame.Conjunction
import FrameLang.Proofs.Frame.KeySorting
import FrameLang.Proofs.Frame.Partition
import FrameLang.Proofs.Frame.SortedSelection
import FrameLang.Proofs.Frame.TypeSafety
import FrameLang.Proofs.Frame.Undoing
import FrameLang.Proofs.Keys.Coherence
import FrameLang.Proofs.Keys.Equality
import FrameLang.Proofs.Mentions
import FrameLang.Proofs.Projection.Agreement
import FrameLang.Proofs.Projection.RowOrder
import FrameLang.Proofs.Registry.History
import FrameLang.Proofs.Silence
import FrameLang.Proofs.Syntax.Printing
import FrameLang.Proofs.Syntax.Progress
import FrameLang.Proofs.Syntax.Shape
import FrameLang.Proofs.Typing.Misuse
import FrameLang.Proofs.Typing.Names
import FrameLang.Proofs.Typing.Recursion
