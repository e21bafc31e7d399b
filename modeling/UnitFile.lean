import UnitFile.Check
import UnitFile.Main
import UnitFile.Samples
import UnitFile.Proofs.WideIndents
import UnitFile.Proofs.PrefixEdits
import UnitFile.Proofs.Growth
import UnitFile.Proofs.CursorAgreement
import UnitFile.Proofs.LaidOut
import UnitFile.Proofs.Consistency
import UnitFile.Proofs.Segmentation
import UnitFile.Proofs.LineOrder
import UnitFile.Proofs.Nesting
import UnitFile.Proofs.FoldFamilies
import UnitFile.Proofs.Forecast
import UnitFile.Proofs.WideBreaks
import UnitFile.Proofs.CommentFolds
import UnitFile.Proofs.Extraction
import UnitFile.Proofs.ValueFolds
import UnitFile.Proofs.DialectAgreement
import UnitFile.Proofs.BlankLine
import UnitFile.Proofs.OpenHeader
import UnitFile.Proofs.ReuseReach
import UnitFile.Proofs.LineColumns
import UnitFile.Proofs.Restart
import UnitFile.Proofs.Phases
