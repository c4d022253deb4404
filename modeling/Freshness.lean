import Freshness.Main
import Freshness.Storage.Tree
import Freshness.Proofs.Agreement
import Freshness.Proofs.Labels
import Freshness.Proofs.Interchange
import Freshness.Proofs.Renaming
import Freshness.Proofs.Updates
import Freshness.Proofs.LetterCase
import Freshness.Proofs.Respelling
import Freshness.Proofs.Preorder
import Freshness.Proofs.FirstRun
import Freshness.Proofs.Asking
import Freshness.Proofs.Outcomes
import Freshness.Proofs.Commands
import Freshness.Proofs.Faults
import Freshness.Proofs.Rechecking
import Freshness.Proofs.Maturity
import Freshness.Proofs.Inclusion
import Freshness.Proofs.Appended
import Freshness.Proofs.Precedence
import Freshness.Proofs.TwoKeys
import Freshness.Proofs.TagLine
import Freshness.Proofs.Cutting
import Freshness.Proofs.Ranking
