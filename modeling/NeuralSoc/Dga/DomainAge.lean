import NeuralSoc.Dga.Slices

/-!
# The domain of an age lookup

`extract_registrable_domain` of `inference/domain_age.py`: the last two labels of a query, checked before they
become part of a URL.
-/

namespace NeuralSoc.Dga

open Shell

def isSpacePoint (c : ℕ) : Bool := isSpace (Char.ofNat c)

/-- `text.strip()` -/
def stripPoints (text : Text) : Text :=
  ((text.dropWhile isSpacePoint).reverse.dropWhile isSpacePoint).reverse

/-- `[a-z0-9]` -/
def isAlnum (c : ℕ) : Bool := (97 ≤ c && c ≤ 122) || (48 ≤ c && c ≤ 57)

/-- `[a-z0-9-]` -/
def isLabelChar (c : ℕ) : Bool := isAlnum c || c == hyphen

/-- `[a-z0-9]([a-z0-9-]{0,61}[a-z0-9])?` -/
def matchesBody : Text → Bool
  | [] => false
  | c :: rest =>
      isAlnum c &&
        (rest.isEmpty ||
          (rest.dropLast.length ≤ 61 && rest.dropLast.all isLabelChar && rest.getLast?.any isAlnum))

/-- `_DOMAIN_LABEL_RE.match(label)`. The `$` of the expression also matches before a newline at the end. -/
def labelMatches (label : Text) : Bool :=
  matchesBody label || (label.getLast? == some newline && matchesBody label.dropLast)

-- `lower` is `text.lower()`.
variable (lower : Text → Text)

def cleanQuery (query : Text) : Text := lower (rstripDots (stripPoints query))

def extractRegistrableDomain (query : Text) : Option Text :=
  if query = [] then none
  else
    let parts := labels (cleanQuery lower query)
    if parts.length < 2 then none
    else
      let sld := lastTwo parts
      if 253 < sld.length then none
      else if !(parts.drop (parts.length - 2)).all labelMatches then none
      else some sld

/-- `text.lower()` of an ASCII text. -/
def asciiLower (text : Text) : Text := text.map fun c => if 65 ≤ c ∧ c ≤ 90 then c + 32 else c

example : extractRegistrableDomain asciiLower (points "A.B.Example.COM.") = some (points "example.com") := by
  decide +kernel

end NeuralSoc.Dga
