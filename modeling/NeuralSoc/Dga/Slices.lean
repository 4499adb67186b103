import NeuralSoc.Base.Shell
import NeuralSoc.Base.Value
import NeuralSoc.Base.Windows

/-!
# What the DGA model is given

A domain is brought to the 38 characters the model knows, taken apart into variants, and every variant cut into
slices of 35 characters.
-/

namespace NeuralSoc.Dga

open Shell

def dot : ℕ := 46

def hyphen : ℕ := 45

def validChars : Text := points "abcdefghijklmnopqrstuvwxyz0123456789-."

/-- `char_map.get(c, 0)` -/
def charCode (c : ℕ) : ℕ := if c ∈ validChars then validChars.idxOf c + 1 else 0

def sanitizeDomainChars (text : Text) : Text := text.map fun c => if c ∈ validChars then c else hyphen

/-- `text.rstrip(".")` -/
def rstripDots (text : Text) : Text := (text.reverse.dropWhile (· = dot)).reverse

inductive IdnaFailure where
  /-- `IDNAError` or `UnicodeError` -/
  | refused
  | other
  deriving DecidableEq, Repr

structure Runtime where
  /-- `unicodedata.normalize("NFKC", text)` -/
  nfkc : Text → Text
  /-- `text.lower()` -/
  lower : Text → Text
  /-- `idna.encode(text, uts46=True).decode("ascii")` -/
  idnaEncode : Text → Except IdnaFailure Text

variable (rt : Runtime)

def cleanDomain (domain : Text) : Text := rt.lower (rstripDots (rt.nfkc domain))

/-- `none` is an exception that nothing but the outermost handler catches. -/
def asciiDomain (domain : Text) : Option Text :=
  match rt.idnaEncode (cleanDomain rt domain) with
  | .ok text => some (rt.lower text)
  | .error .refused => some (cleanDomain rt domain)
  | .error .other => none

def sanitizedAscii (domain : Text) : Option Text := (asciiDomain rt domain).map sanitizeDomainChars

/-! ## Variants -/

/-- `[p for p in text.split(".") if p]` -/
def labels (text : Text) : List Text := (text.splitOn dot).filter (· ≠ [])

/-- `".".join(parts[-2:])` -/
def lastTwo (parts : List Text) : Text := [dot].intercalate (parts.drop (parts.length - 2))

-- `d in domains` compares texts
local instance : LawfulBEq Text := inferInstance

def addNew (domains : List Text) (d : Text) : List Text := if d ∈ domains then domains else domains ++ [d]

def domainsToCheck (ascii clean : Text) : List Text :=
  let sanitized := sanitizeDomainChars ascii
  let domains := [sanitized]
  let domains :=
    if ascii ≠ clean ∧ sanitizeDomainChars clean ≠ [] then addNew domains (sanitizeDomainChars clean)
    else domains
  let parts := labels sanitized
  if 2 ≤ parts.length then
    parts.foldl (fun domains part => if 4 ≤ part.length then addNew domains part else domains)
      (addNew domains (lastTwo parts))
  else domains

/-! ## Slices -/

/-- `all_slices` and `all_texts` -/
structure Batch where
  slices : List (List ℕ)
  texts : List Text
  deriving DecidableEq, Repr

def budgetPerDomain (subset : List Text) : ℕ := if subset = [] then 32 else max 1 (32 / subset.length)

/-- The slices of one variant. `d[-35:]` starts at `len(d) - 35`. -/
def domainSlices (budget : ℕ) (d : Text) : Batch :=
  let encoded := d.map charCode
  if encoded = [] then ⟨[], []⟩
  else if 35 < encoded.length then
    let starts := windowStarts 35 15 budget encoded.length
    ⟨(starts.map fun start => (encoded.drop start).take 35).take budget,
      (starts.map fun start => (d.drop start).take 35).take budget⟩
  else ⟨[encoded ++ List.replicate (35 - encoded.length) 0].take budget, [d].take budget⟩

def buildBatch (domains : List Text) : Batch :=
  let subset := domains.take 8
  let budget := budgetPerDomain subset
  ⟨(subset.flatMap fun d => (domainSlices budget d).slices).take 32,
    (subset.flatMap fun d => (domainSlices budget d).texts).take 32⟩

/-- `loaded` is the truth value of `self.model`; `expired` and `expiredLater` say what the two looks at the
deadline find. -/
structure Call where
  domain : Text
  loaded : Bool
  expired : Bool
  expiredLater : Bool
  deriving DecidableEq, Repr

/-- The variants of a call that comes to `domains_to_check`. -/
def variants (call : Call) : Option (List Text) :=
  if call.domain = [] ∨ call.loaded = false ∨ 512 < call.domain.length then none
  else if call.expired then none
  else
    match asciiDomain rt call.domain with
    | none => none
    | some ascii =>
        if sanitizeDomainChars ascii = [] then none
        else if call.expiredLater then none
        else some (domainsToCheck ascii (cleanDomain rt call.domain))

/-- The answer `(is_dga, highest_prob, 0.1)`. `model` gives the largest probability of a batch, or `none` for an
exception. -/
def predictImpl (threshold : ℚ) (model : Batch → Option PyFloat) (call : Call) : Bool × PyFloat × ℚ :=
  match variants rt call with
  | none => (false, .fin 0, 0)
  | some domains =>
      let batch := buildBatch domains
      if batch.slices = [] then (PyFloat.lt (.fin threshold) (.fin 0), .fin 0, 1 / 10)
      else
        match model batch with
        | none => (false, .fin 0, 0)
        | some maxProb =>
            let highest := if PyFloat.lt (.fin 0) maxProb then maxProb else .fin 0
            (PyFloat.lt (.fin threshold) highest, highest, 1 / 10)

end NeuralSoc.Dga
