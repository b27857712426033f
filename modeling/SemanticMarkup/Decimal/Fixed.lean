import SemanticMarkup.Decimal.Binary64

namespace SemanticMarkup.Decimal.Binary64

-- A fixed number of places after the point, of the exact value, ties to the even digit.
def fixed (places : Nat) (x : Binary64) : String :=
  match x with
  | .finite s m e =>
    let (n, d) := fraction m e
    fixedText places s n d
  | .infinite s => if s then "-inf" else "inf"
  | .nan => "nan"

end SemanticMarkup.Decimal.Binary64
