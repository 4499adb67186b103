import NeuralSoc.Dga.Slices
import Mathlib.Algebra.Order.Field.Rat

/-!
# What the DGA model is trained on

`lexical_features`, and the encoding at the end of `generate_hard_dataset` of `inference/train_model.py` and of
`generate_dynamic_dataset` of `scripts/continuous_training.py`.
-/

namespace NeuralSoc.Dga

open Shell

/-! ## Lexical features -/

structure LexRuntime where
  /-- `math.log2` -/
  log2 : ℚ → ℚ
  /-- `c.isdigit()` -/
  isDigit : ℕ → Bool

def vowels : Text := points "aeiou"

def consonants : Text := (points "abcdefghijklmnopqrstuvwxyz").filter (· ∉ vowels)

/-- The longest run of consonants: the best one so far and the current one. -/
def maxRun (label : Text) : ℕ :=
  (label.foldl (fun (best, current) c =>
    if c ∈ consonants then (max best (current + 1), current + 1) else (best, 0)) (0, 0)).1

def lexicalFeatures (lx : LexRuntime) (label : Text) : List ℚ :=
  let n : ℚ := label.length
  if label = [] then List.replicate 7 0
  else
    let entropy := -(label.eraseDups.map fun c => label.count c / n * lx.log2 (label.count c / n)).sum
    [min (n / 63) 1,
      min (entropy / (525 / 100)) 1,
      label.countP lx.isDigit / n,
      label.countP (· ∈ vowels) / n,
      label.eraseDups.length / n,
      min (maxRun label / 10) 1,
      label.count hyphen / n]

/-- The second tensor of a batch, one row for each text. -/
def lexRows (lx : LexRuntime) (batch : Batch) : List (List ℚ) := batch.texts.map (lexicalFeatures lx)

/-! ## Data sets -/

/-- A row of `encoded_data` and of `lex_data`. -/
structure Row where
  codes : List ℕ
  features : List ℚ
  deriving DecidableEq

/-- `char_map[c]`; `none` is a `KeyError`. -/
def charMapAt (c : ℕ) : Option ℕ := if c ∈ validChars then some (validChars.idxOf c + 1) else none

variable (rt : Runtime) (lx : LexRuntime)

/-- One turn of the loop over the domains. -/
def trainingRow (maxLen : ℕ) (d : Text) : Option Row := do
  let sanitized := sanitizeDomainChars ((rt.lower d).take maxLen)
  let encoded ← sanitized.mapM charMapAt
  let padded := if encoded.length < maxLen then encoded ++ List.replicate (maxLen - encoded.length) 0 else encoded
  return ⟨padded.take maxLen, lexicalFeatures lx sanitized⟩

def generateHardDataset (data : List Text) : Option (List Row) := data.mapM (trainingRow rt lx 35)

def generateDynamicDataset (data : List Text) : Option (List Row) := data.mapM (trainingRow rt lx 35)

end NeuralSoc.Dga
