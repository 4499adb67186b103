import Mathlib.Algebra.Order.Ring.Nat
import Mathlib.Data.List.Lex
import Mathlib.Data.String.Basic

/-!
# ISO texts of times

`datetime.now(timezone.utc).isoformat()`. Its numbers have fixed widths, so texts compare as the times do; the
fraction, which is left out when it is zero, begins with a character above the `+` of the offset.
-/

namespace NeuralSoc

/-! ## Decimals of a fixed width -/

def decimal : ℕ → ℕ → List Char
  | 0, _ => []
  | w + 1, n => Nat.digitChar (n / 10 ^ w) :: decimal w (n % 10 ^ w)

theorem digitChar_lt_iff {a b : ℕ} (ha : a < 10) (hb : b < 10) : Nat.digitChar a < Nat.digitChar b ↔ a < b := by
  have hall : ∀ a b : Fin 10, Nat.digitChar a < Nat.digitChar b ↔ a < b := by decide
  exact hall ⟨a, ha⟩ ⟨b, hb⟩

theorem digitChar_inj {a b : ℕ} (ha : a < 10) (hb : b < 10) : Nat.digitChar a = Nat.digitChar b ↔ a = b := by
  have hall : ∀ a b : Fin 10, Nat.digitChar a = Nat.digitChar b ↔ a = b := by decide
  exact (hall ⟨a, ha⟩ ⟨b, hb⟩).trans Fin.ext_iff

theorem lt_iff_div_mod {p : ℕ} (hp : 0 < p) (n m : ℕ) : n < m ↔ n / p < m / p ∨ n / p = m / p ∧ n % p < m % p := by
  have hn := Nat.div_add_mod n p
  have hm := Nat.div_add_mod m p
  rcases lt_trichotomy (n / p) (m / p) with h | h | h
  · refine iff_of_true ?_ (.inl h)
    exact (Nat.div_lt_iff_lt_mul hp).mp (h.trans_le le_rfl) |>.trans_le (Nat.div_mul_le_self m p)
  · rw [h] at hn ⊢
    simp only [lt_irrefl, false_or, true_and]
    omega
  · refine iff_of_false (fun hlt => ?_) (by omega)
    exact absurd (Nat.div_le_div_right (c := p) hlt.le) (not_le.mpr h)

theorem eq_iff_div_mod (p n m : ℕ) : n = m ↔ n / p = m / p ∧ n % p = m % p := by
  constructor
  · rintro rfl
    exact ⟨rfl, rfl⟩
  · rintro ⟨hdiv, hmod⟩
    rw [← Nat.div_add_mod n p, ← Nat.div_add_mod m p, hdiv, hmod]

/-- Numbers of one width compare before what follows them. -/
theorem decimal_append_lt {w n m : ℕ} (hn : n < 10 ^ w) (hm : m < 10 ^ w) (s t : List Char) :
    decimal w n ++ s < decimal w m ++ t ↔ n < m ∨ n = m ∧ s < t := by
  induction w generalizing n m with
  | zero =>
      obtain rfl := Nat.lt_one_iff.mp hn
      obtain rfl := Nat.lt_one_iff.mp hm
      simp [decimal]
  | succ w ih =>
      have hp : 0 < 10 ^ w := Nat.pow_pos (by decide)
      have hdigit : ∀ {k : ℕ}, k < 10 ^ (w + 1) → k / 10 ^ w < 10 := fun h =>
        (Nat.div_lt_iff_lt_mul hp).mpr (by rwa [pow_succ, mul_comm] at h)
      simp only [decimal, List.cons_append, List.cons_lt_cons_iff, digitChar_lt_iff (hdigit hn) (hdigit hm),
        digitChar_inj (hdigit hn) (hdigit hm), ih (Nat.mod_lt n hp) (Nat.mod_lt m hp)]
      rw [lt_iff_div_mod hp n m, eq_iff_div_mod (10 ^ w) n m]
      tauto

/-! ## Times -/

/-- The fields of a time in UTC. -/
structure UtcTime where
  year : ℕ
  month : ℕ
  day : ℕ
  hour : ℕ
  minute : ℕ
  second : ℕ
  microsecond : ℕ
  bounds : year ≤ 9999 ∧ month ≤ 12 ∧ day ≤ 31 ∧ hour < 24 ∧ minute < 60 ∧ second < 60 ∧ microsecond < 1000000

/-- Times compare by their fields, from the year down. -/
def UtcTime.fields (t : UtcTime) : List ℕ :=
  [t.year, t.month, t.day, t.hour, t.minute, t.second, t.microsecond]

def UtcTime.fraction (t : UtcTime) : List Char :=
  if t.microsecond = 0 then "+00:00".toList else '.' :: (decimal 6 t.microsecond ++ "+00:00".toList)

def UtcTime.isoformat (t : UtcTime) : String :=
  String.ofList (decimal 4 t.year ++ '-' :: (decimal 2 t.month ++ '-' :: (decimal 2 t.day ++ 'T' ::
    (decimal 2 t.hour ++ ':' :: (decimal 2 t.minute ++ ':' :: (decimal 2 t.second ++ t.fraction))))))

example : UtcTime.isoformat ⟨2026, 1, 2, 3, 4, 5, 60, by decide⟩ = "2026-01-02T03:04:05.000060+00:00" := by decide

theorem fraction_lt_iff (t u : UtcTime) : t.fraction < u.fraction ↔ t.microsecond < u.microsecond := by
  have ht : t.microsecond < 10 ^ 6 := t.bounds.2.2.2.2.2.2
  have hu : u.microsecond < 10 ^ 6 := u.bounds.2.2.2.2.2.2
  have hoffset : ∀ s : List Char, "+00:00".toList < '.' :: s := fun s =>
    List.cons_lt_cons_iff.mpr (.inl (by decide))
  unfold UtcTime.fraction
  split
  · next h =>
      split
      · next h' => exact iff_of_false (lt_irrefl _) (by omega)
      · next h' => exact iff_of_true (hoffset _) (by omega)
  · next h =>
      split
      · next h' => exact iff_of_false (lt_asymm (hoffset _)) (by omega)
      · next h' =>
          rw [List.cons_lt_cons_self, decimal_append_lt ht hu, or_iff_left fun h => lt_irrefl _ h.2]

/-- The texts compare as the times. -/
theorem isoformat_lt_iff (t u : UtcTime) : t.isoformat < u.isoformat ↔ t.fields < u.fields := by
  obtain ⟨hy, hmo, hd, hh, hmi, hs, -⟩ := t.bounds
  obtain ⟨hy', hmo', hd', hh', hmi', hs', -⟩ := u.bounds
  have hpair : ∀ {n : ℕ}, n < 100 → n < 10 ^ 2 := id
  rw [UtcTime.isoformat, UtcTime.isoformat, String.lt_iff_toList_lt, String.toList_ofList,
    String.toList_ofList]
  rw [decimal_append_lt (Nat.lt_succ_of_le hy) (Nat.lt_succ_of_le hy'), List.cons_lt_cons_self,
    decimal_append_lt (hpair (by omega)) (hpair (by omega)), List.cons_lt_cons_self,
    decimal_append_lt (hpair (by omega)) (hpair (by omega)), List.cons_lt_cons_self,
    decimal_append_lt (hpair (by omega)) (hpair (by omega)), List.cons_lt_cons_self,
    decimal_append_lt (hpair (by omega)) (hpair (by omega)), List.cons_lt_cons_self,
    decimal_append_lt (hpair (by omega)) (hpair (by omega)), fraction_lt_iff]
  simp only [UtcTime.fields, List.cons_lt_cons_iff, List.not_lt_nil, and_false, or_false]

theorem isoformat_le_iff (t u : UtcTime) : t.isoformat ≤ u.isoformat ↔ t.fields ≤ u.fields := by
  rw [← not_lt, ← not_lt, isoformat_lt_iff]

end NeuralSoc
