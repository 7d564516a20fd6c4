import LintDelta.Main
import LintDelta.Proofs.CommitRange
import LintDelta.Proofs.Contrast.Accounting
import LintDelta.Proofs.Contrast.Attribution
import LintDelta.Proofs.Contrast.Belonging
import LintDelta.Proofs.Contrast.Bounds
import LintDelta.Proofs.Contrast.Confinement
import LintDelta.Proofs.Contrast.Copies
import LintDelta.Proofs.Contrast.Degradation
import LintDelta.Proofs.Contrast.Discipline
import LintDelta.Proofs.Contrast.Policies
import LintDelta.Proofs.Contrast.Reordering
import LintDelta.Proofs.Contrast.Restoration
import LintDelta.Proofs.Contrast.Strategies
import LintDelta.Proofs.Contrast.Totals
import LintDelta.Proofs.Linter.Grades
import LintDelta.Proofs.Linter.Lines
import LintDelta.Proofs.Linter.Listings
import LintDelta.Proofs.Linter.Rules
import LintDelta.Proofs.Linter.Verdict
import LintDelta.Proofs.Report.Records
import LintDelta.Proofs.Report.Rendering
import LintDelta.Proofs.Report.Results
import LintDelta.Proofs.Report.Sections
import LintDelta.Proofs.Report.Storage
import LintDelta.Proofs.Repository.Attachment
import LintDelta.Proofs.Repository.Replay
import LintDelta.Proofs.Routing.Reach
import LintDelta.Proofs.Symbols
import LintDelta.Proofs.Tally.Canonical
import LintDelta.Proofs.Tally.Folding
import LintDelta.Proofs.Tally.Group
import LintDelta.Proofs.Tally.Movements
