import NeuralSoc.Base.OrderedDict
import NeuralSoc.Base.Value

/-!
# Caches with a time to live

`_get_cached` and `_set_cached` of `DomainAgeLookup` in `inference/domain_age.py` and of `ThreatEnricher` in
`inference/enrichment.py`. The bodies agree except for what a miss returns. The clock is any linear order with an
addition, so the expiry of an entry is the sum as the code rounds it.
-/

namespace NeuralSoc.Caches

variable {ν τ : Type*} [LinearOrder τ] [Add τ]

structure TtlCache (ν τ : Type*) where
  cache : Dict String (ν × τ)
  cacheTtl : τ
  maxCacheSize : ℕ

def TtlCache.empty (cacheTtl : τ) (maxCacheSize : ℕ) : TtlCache ν τ := ⟨Dict.empty, cacheTtl, maxCacheSize⟩

namespace TtlCache

def getCached (miss : ν) (c : TtlCache ν τ) (key : String) (now : τ) : ν × TtlCache ν τ :=
  match c.cache.get? key with
  | some (value, exp) =>
      if now < exp then (value, { c with cache := c.cache.moveToEnd key })
      else (miss, { c with cache := c.cache.erase key })
  | none => (miss, c)

def setCached (c : TtlCache ν τ) (key : String) (value : ν) (now : τ) : TtlCache ν τ :=
  let moved := if key ∈ c.cache.keys then c.cache.moveToEnd key else c.cache
  { c with cache := (moved.set key (value, now + c.cacheTtl)).limit c.maxCacheSize }

end TtlCache

structure Methods (ν τ : Type*) where
  getCached : TtlCache ν τ → String → τ → ν × TtlCache ν τ
  setCached : TtlCache ν τ → String → ν → τ → TtlCache ν τ

def ttlMethods (miss : ν) : Methods ν τ := ⟨TtlCache.getCached miss, TtlCache.setCached⟩

def domainAgeLookup : Methods Json τ := ttlMethods (.str "MISS")

def threatEnricher : Methods Object τ := ttlMethods []

/-! ## Calls -/

inductive Call (ν τ : Type*) where
  | get (key : String) (now : τ)
  | set (key : String) (value : ν) (now : τ)

def Call.now : Call ν τ → τ
  | .get _ now => now
  | .set _ _ now => now

/-- The cache finds an entry that has not expired. -/
def TtlCache.Hit (c : TtlCache ν τ) (key : String) (now : τ) : Prop := ∃ e, c.cache.get? key = some e ∧ now < e.2

instance (c : TtlCache ν τ) (key : String) (now : τ) : Decidable (c.Hit key now) :=
  decidable_of_iff ((c.cache.get? key).any fun e => now < e.2) (by
    cases h : c.cache.get? key <;> simp [TtlCache.Hit, h])

/-- A cache and the keys that were set or hit, the newest first. -/
structure Watched (ν τ : Type*) where
  cache : TtlCache ν τ
  used : List String

def Methods.call (m : Methods ν τ) (s : Watched ν τ) : Call ν τ → Watched ν τ
  | .get key now => ⟨(m.getCached s.cache key now).2, if s.cache.Hit key now then key :: s.used else s.used⟩
  | .set key value now => ⟨m.setCached s.cache key value now, key :: s.used⟩

def Methods.run (m : Methods ν τ) (cacheTtl : τ) (maxCacheSize : ℕ) (calls : List (Call ν τ)) : Watched ν τ :=
  calls.foldl m.call ⟨.empty cacheTtl maxCacheSize, []⟩

/-- The value last set for a key and the time of that call. -/
def lastSet (calls : List (Call ν τ)) (key : String) : Option (ν × τ) :=
  calls.foldl (fun last call =>
    match call with
    | .get _ _ => last
    | .set k value now => if k = key then some (value, now) else last) none

/-- The times of the calls and the present never go back. -/
def Timed (calls : List (Call ν τ)) (now : τ) : Prop := (calls.map Call.now ++ [now]).Pairwise (· ≤ ·)

end NeuralSoc.Caches
