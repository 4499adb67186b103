import NeuralSoc.Base.Lru
import NeuralSoc.Caches.TtlCache

/-! # The caches forget the least recently used -/

namespace NeuralSoc.Caches

open Lru

variable {ν τ : Type*}

/-! ## What a call does -/

namespace TtlCache

variable {c : TtlCache ν τ} {key j : String} {now : τ} {value : ν}

section Get

variable [LinearOrder τ]

theorem getCached_settings (miss : ν) (c : TtlCache ν τ) (key : String) (now : τ) :
    (c.getCached miss key now).2.cacheTtl = c.cacheTtl ∧
      (c.getCached miss key now).2.maxCacheSize = c.maxCacheSize := by
  rw [getCached]
  split
  · split
    · exact ⟨rfl, rfl⟩
    · exact ⟨rfl, rfl⟩
  · exact ⟨rfl, rfl⟩

theorem getCached_of_hit (miss : ν) (h : c.Hit key now) :
    ∃ e, c.cache.get? key = some e ∧ now < e.2 ∧
      c.getCached miss key now = (e.1, { c with cache := c.cache.moveToEnd key }) := by
  obtain ⟨e, he, hlt⟩ := h
  exact ⟨e, he, hlt, by simp only [getCached, he, if_pos hlt]⟩

theorem getCached_of_not_hit (miss : ν) (h : ¬ c.Hit key now) :
    (c.getCached miss key now).1 = miss ∧
      (c.getCached miss key now).2.cache.keys = c.cache.keys.erase key ∧
        ∀ j, (c.getCached miss key now).2.cache.get? j = if j = key then none else c.cache.get? j := by
  cases hk : c.cache.get? key with
  | none =>
      simp only [getCached, hk]
      refine ⟨trivial, (List.erase_of_not_mem (Dict.get?_eq_none_iff.mp hk)).symm, fun j => ?_⟩
      split
      · next hj => rw [hj, hk]
      · rfl
  | some e =>
      have hexp : ¬ now < e.2 := fun hlt => h ⟨e, hk, hlt⟩
      simp only [getCached, hk, if_neg hexp]
      exact ⟨trivial, Dict.keys_erase _ _, Dict.get?_erase _ _⟩

end Get

section Set

variable [Add τ]

theorem keys_setCached (c : TtlCache ν τ) (key : String) (value : ν) (now : τ) :
    (c.setCached key value now).cache.keys = recent c.maxCacheSize (touch key c.cache.keys) := by
  rw [setCached, Dict.keys_limit]
  refine congrArg (recent _) ?_
  split
  · next h =>
      have hmem : key ∈ touch key c.cache.keys := (mem_touch c.cache.nodup).mpr (.inl rfl)
      rw [Dict.keys_set_of_mem (by rwa [Dict.keys_moveToEnd h]), Dict.keys_moveToEnd h]
  · next h => rw [Dict.keys_set_of_not_mem h, touch_of_not_mem h]

theorem get?_of_setCached {e : ν × τ} (h : (c.setCached key value now).cache.get? j = some e) :
    if j = key then e = (value, now + c.cacheTtl) else c.cache.get? j = some e := by
  have hset := Dict.get?_of_get?_limit h
  rw [Dict.get?_set] at hset
  split at hset
  · next hj =>
      rw [if_pos hj]
      exact (Option.some.inj hset).symm
  · next hj =>
      rw [if_neg hj]
      split at hset
      · rwa [Dict.get?_moveToEnd] at hset
      · exact hset

end Set

end TtlCache

theorem lastSet_concat_get (calls : List (Call ν τ)) (k : String) (now : τ) (key : String) :
    lastSet (calls ++ [.get k now]) key = lastSet calls key := by
  rw [lastSet, List.foldl_concat]
  rfl

theorem lastSet_concat_set (calls : List (Call ν τ)) (k : String) (value : ν) (now : τ) (key : String) :
    lastSet (calls ++ [.set k value now]) key = if k = key then some (value, now) else lastSet calls key := by
  rw [lastSet, List.foldl_concat]
  rfl

/-! ## The invariant of a run -/

variable [LinearOrder τ] [Add τ]

/-- What the calls and the uses of the keys say about the cache. -/
structure Tracks (ttl : τ) (n : ℕ) (calls : List (Call ν τ)) (s : Watched ν τ) : Prop where
  cacheTtl : s.cache.cacheTtl = ttl
  maxCacheSize : s.cache.maxCacheSize = n
  bounded : s.cache.cache.keys.length ≤ n
  stored : ∀ key e, s.cache.cache.get? key = some e → ∃ t, lastSet calls key = some (e.1, t) ∧ e.2 = t + ttl
  ordered : Ordered s.used s.cache.cache.keys
  kept : ∀ key value t, lastSet calls key = some (value, t) → key ∉ s.cache.cache.keys →
    (∃ call ∈ calls, t + ttl ≤ call.now) ∨ n ≤ (others s.used key).card

variable {ttl : τ} {n : ℕ} {calls : List (Call ν τ)} {s : Watched ν τ}

theorem tracks_empty : Tracks ttl n ([] : List (Call ν τ)) ⟨.empty ttl n, []⟩ where
  cacheTtl := rfl
  maxCacheSize := rfl
  bounded := Nat.zero_le n
  stored := fun _ _ h => nomatch h
  ordered := List.Pairwise.nil
  kept := fun _ _ _ h => nomatch h

/-- An entry that was missing before a call on another key has its reasons still. -/
theorem still_missing {call : Call ν τ} {t : τ} {key k : String} (hne : k ≠ key)
    (h : (∃ call ∈ calls, t + ttl ≤ call.now) ∨ n ≤ (others s.used key).card) :
    (∃ c ∈ calls ++ [call], t + ttl ≤ c.now) ∨ n ≤ (others (k :: s.used) key).card := by
  rcases h with ⟨c, hc, hle⟩ | hfull
  · exact .inl ⟨c, List.mem_append_left _ hc, hle⟩
  · exact .inr (hfull.trans (card_others_le_cons hne))

theorem Tracks.set (h : Tracks ttl n calls s) (k : String) (value : ν) (now : τ) :
    Tracks ttl n (calls ++ [.set k value now]) ⟨s.cache.setCached k value now, k :: s.used⟩ := by
  have hn : s.cache.cache.keys.Nodup := s.cache.cache.nodup
  have hkeys := TtlCache.keys_setCached s.cache k value now
  rw [h.maxCacheSize] at hkeys
  have hordered := h.ordered.touch hn k
  refine ⟨h.cacheTtl, h.maxCacheSize, ?_, ?_, ?_, ?_⟩
  · rw [hkeys, length_recent]
    exact Nat.min_le_left _ _
  · intro key e he
    have hset := TtlCache.get?_of_setCached he
    rw [lastSet_concat_set]
    by_cases hk : key = k
    · rw [if_pos hk] at hset
      rw [if_pos hk.symm, hset, h.cacheTtl]
      exact ⟨now, rfl, rfl⟩
    · rw [if_neg hk] at hset
      rw [if_neg (Ne.symm hk)]
      exact h.stored key e hset
  · rw [hkeys]
    exact hordered.sublist (List.drop_sublist _ _)
  · intro key v t hlast hmissing
    rw [hkeys] at hmissing
    -- The key was pushed out by this call or had no entry before.
    by_cases hmem : key ∈ touch k s.cache.cache.keys
    · exact .inr (hordered.le_card_others (nodup_touch hn) hmem hmissing)
    · rw [mem_touch hn, not_or] at hmem
      rw [lastSet_concat_set, if_neg (Ne.symm hmem.1)] at hlast
      exact still_missing (Ne.symm hmem.1) (h.kept key v t hlast hmem.2)

theorem Tracks.hit {miss : ν} (h : Tracks ttl n calls s) {k : String} {now : τ} (hhit : s.cache.Hit k now) :
    Tracks ttl n (calls ++ [.get k now]) ⟨(s.cache.getCached miss k now).2, k :: s.used⟩ := by
  have hn : s.cache.cache.keys.Nodup := s.cache.cache.nodup
  obtain ⟨e, he, -, hget⟩ := TtlCache.getCached_of_hit miss hhit
  have hk : k ∈ s.cache.cache.keys := Dict.mem_keys.mpr ⟨e, he⟩
  have hkeys := Dict.keys_moveToEnd hk
  rw [hget]
  refine ⟨h.cacheTtl, h.maxCacheSize, ?_, ?_, ?_, ?_⟩
  · rw [hkeys, length_touch_of_mem hk]
    exact h.bounded
  · intro key e' he'
    rw [lastSet_concat_get]
    rw [Dict.get?_moveToEnd] at he'
    exact h.stored key e' he'
  · rw [hkeys]
    exact h.ordered.touch hn k
  · intro key v t hlast hmissing
    rw [lastSet_concat_get] at hlast
    rw [hkeys, mem_touch hn, not_or] at hmissing
    exact still_missing (Ne.symm hmissing.1) (h.kept key v t hlast hmissing.2)

theorem Tracks.missed {miss : ν} (h : Tracks ttl n calls s) {k : String} {now : τ} (hhit : ¬ s.cache.Hit k now) :
    Tracks ttl n (calls ++ [.get k now]) ⟨(s.cache.getCached miss k now).2, s.used⟩ := by
  obtain ⟨-, hkeys, hget⟩ := TtlCache.getCached_of_not_hit miss hhit
  have hsettings := TtlCache.getCached_settings miss s.cache k now
  refine ⟨hsettings.1.trans h.cacheTtl, hsettings.2.trans h.maxCacheSize, ?_, ?_, ?_, ?_⟩
  · rw [hkeys]
    exact List.erase_sublist.length_le.trans h.bounded
  · intro key e he
    rw [lastSet_concat_get]
    rw [hget] at he
    split at he
    · cases he
    · exact h.stored key e he
  · rw [hkeys]
    exact h.ordered.sublist List.erase_sublist
  · intro key v t hlast hmissing
    rw [lastSet_concat_get] at hlast
    rw [hkeys] at hmissing
    by_cases hmem : key ∈ s.cache.cache.keys
    · -- The call took the entry of its own key away, which had expired.
      have hk : key = k := by
        by_contra hne
        exact hmissing ((List.mem_erase_of_ne hne).mpr hmem)
      subst hk
      obtain ⟨e, he⟩ := Dict.mem_keys.mp hmem
      obtain ⟨t', hlast', hexp⟩ := h.stored key e he
      rw [hlast, Option.some.injEq, Prod.mk.injEq] at hlast'
      refine .inl ⟨.get key now, List.mem_append_right _ List.mem_cons_self, ?_⟩
      rw [hlast'.2, ← hexp]
      exact le_of_not_gt fun hlt => hhit ⟨e, he, hlt⟩
    · rcases h.kept key v t hlast hmem with ⟨call, hcall, hle⟩ | hfull
      · exact .inl ⟨call, List.mem_append_left _ hcall, hle⟩
      · exact .inr hfull

theorem Tracks.call {miss : ν} (h : Tracks ttl n calls s) (call : Call ν τ) :
    Tracks ttl n (calls ++ [call]) ((ttlMethods miss).call s call) := by
  cases call with
  | set key value now => exact h.set key value now
  | get key now =>
      rw [Methods.call]
      split
      · next hhit => exact h.hit hhit
      · next hhit => exact h.missed hhit

theorem tracks_run (miss : ν) (ttl : τ) (n : ℕ) (calls : List (Call ν τ)) :
    Tracks ttl n calls ((ttlMethods miss).run ttl n calls) := by
  induction calls using List.reverseRecOn with
  | nil => exact tracks_empty
  | append_singleton calls call ih =>
      rw [Methods.run, List.foldl_concat]
      exact ih.call call

/-! ## Correctness -/

/-- What the cache holds and answers at the time `now` after the calls. -/
structure IsLru (m : Methods ν τ) (miss : ν) (ttl : τ) (n : ℕ) (calls : List (Call ν τ)) (now : τ) : Prop where
  bounded : (m.run ttl n calls).cache.cache.entries.length ≤ n
  found : ∀ key, (m.run ttl n calls).cache.Hit key now →
    ∃ t, lastSet calls key = some ((m.getCached (m.run ttl n calls).cache key now).1, t) ∧ now < t + ttl
  missed : ∀ key, ¬ (m.run ttl n calls).cache.Hit key now →
    (m.getCached (m.run ttl n calls).cache key now).1 = miss
  kept : ∀ key value t, lastSet calls key = some (value, t) → now < t + ttl →
    ¬ (m.run ttl n calls).cache.Hit key now → n ≤ (others (m.run ttl n calls).used key).card

theorem isLru_ttlMethods (miss : ν) (ttl : τ) (n : ℕ) {calls : List (Call ν τ)} {now : τ} (h : Timed calls now) :
    IsLru (ttlMethods miss) miss ttl n calls now := by
  have hrun := tracks_run miss ttl n calls
  have hpresent : ∀ call ∈ calls, call.now ≤ now := by
    rw [Timed, List.pairwise_append] at h
    exact fun call hcall => h.2.2 _ (List.mem_map_of_mem hcall) now List.mem_cons_self
  refine ⟨?_, ?_, fun key hmiss => (TtlCache.getCached_of_not_hit miss hmiss).1, ?_⟩
  · simpa [Dict.keys] using hrun.bounded
  · intro key hhit
    obtain ⟨e, he, hlt, hget⟩ := TtlCache.getCached_of_hit miss hhit
    obtain ⟨t, hlast, hexp⟩ := hrun.stored key e he
    refine ⟨t, ?_, hexp ▸ hlt⟩
    rw [hlast]
    exact congrArg (fun r => some (r.1, t)) hget.symm
  · intro key value t hlast hlt hmiss
    by_cases hmem : key ∈ ((ttlMethods miss).run ttl n calls).cache.cache.keys
    · obtain ⟨e, he⟩ := Dict.mem_keys.mp hmem
      obtain ⟨t', hlast', hexp⟩ := hrun.stored key e he
      rw [hlast, Option.some.injEq, Prod.mk.injEq] at hlast'
      exact absurd ⟨e, he, by rwa [hexp, ← hlast'.2]⟩ hmiss
    · rcases hrun.kept key value t hlast hmem with ⟨call, hcall, hle⟩ | hfull
      · exact absurd (hle.trans (hpresent call hcall)) (not_le_of_gt hlt)
      · exact hfull

theorem caches_are_lru (ttl : τ) (n : ℕ) :
    (∀ (calls : List (Call Json τ)) (now : τ), Timed calls now →
        IsLru domainAgeLookup (.str "MISS") ttl n calls now) ∧
      ∀ (calls : List (Call Object τ)) (now : τ), Timed calls now → IsLru threatEnricher [] ttl n calls now :=
  ⟨fun _ _ h => isLru_ttlMethods _ ttl n h, fun _ _ h => isLru_ttlMethods _ ttl n h⟩

def cityOf (city : String) : Object := [("city", .str city)]

/-- A fourth address when the first one has just been read. -/
def fourAddresses : List (Call Object ℕ) :=
  [.set "1.1.1.1" (cityOf "City1") 0, .set "2.2.2.2" (cityOf "City2") 1, .set "3.3.3.3" (cityOf "City3") 2,
    .get "1.1.1.1" 3, .set "4.4.4.4" (cityOf "City4") 4]

theorem caches_are_lru_fourAddresses :
    IsLru threatEnricher [] 3600 3 fourAddresses 5 ∧
      ¬ (threatEnricher.run 3600 3 fourAddresses).cache.Hit "2.2.2.2" 5 ∧
        (threatEnricher.run 3600 3 fourAddresses).cache.Hit "1.1.1.1" 5 :=
  ⟨(caches_are_lru 3600 3).2 fourAddresses 5 (by unfold Timed; decide), by decide, by decide⟩

end NeuralSoc.Caches
