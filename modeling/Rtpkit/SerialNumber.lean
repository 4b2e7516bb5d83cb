import Mathlib.Algebra.Order.Group.Unbundled.Int
import Mathlib.Data.Int.ModEq
import Mathlib.Data.List.Induction

namespace SerialNumber

/-- The number congruent to `s` modulo `2 * half` that the two strict comparisons place
nearest to `ref`. -/
def unwrap (half ref s : Int) : Int :=
  let prev := ref % (2 * half)
  let delta := s - prev
  ref - prev + prev + (if delta > half then delta - 2 * half
    else if delta < -half then delta + 2 * half else delta)

theorem unwrap_eq_add_mul (half ref s : Int) : ∃ k, unwrap half ref s = s + 2 * half * k := by
  have hdiv := Int.emod_add_mul_ediv ref (2 * half)
  unfold unwrap
  dsimp only
  split
  next => exact ⟨ref / (2 * half) - 1, by rw [Int.mul_sub]; omega⟩
  split
  next => exact ⟨ref / (2 * half) + 1, by rw [Int.mul_add]; omega⟩
  next => exact ⟨ref / (2 * half), by omega⟩

theorem unwrap_emod (half ref s : Int) : unwrap half ref s % (2 * half) = s % (2 * half) := by
  obtain ⟨k, hk⟩ := unwrap_eq_add_mul half ref s
  rw [hk, Int.add_mul_emod_self_left]

theorem unwrap_bounds {half s : Int} (ref : Int) (hs : 0 ≤ s) (hlt : s < 2 * half) :
    ref - half ≤ unwrap half ref s ∧ unwrap half ref s ≤ ref + half := by
  have h0 := Int.emod_nonneg ref (show 2 * half ≠ 0 by omega)
  have h1 := Int.emod_lt_of_pos ref (show 0 < 2 * half by omega)
  unfold unwrap
  dsimp only
  split
  next => omega
  split
  next => omega
  next => omega

theorem eq_of_emod_eq {m a b : Int} (h : a % m = b % m) (hnear : |a - b| < m) : a = b := by
  have hdvd : m ∣ a - b := Int.ModEq.dvd (show b % m = a % m from h.symm)
  have hzero := Int.eq_zero_of_abs_lt_dvd hdvd hnear
  omega

/-- Any number within half the range of the reference is recovered from its residue. -/
theorem unwrap_of_near {half ref n : Int} (h : |n - ref| < half) :
    unwrap half ref (n % (2 * half)) = n := by
  obtain ⟨hlo, hhi⟩ := abs_lt.mp h
  have hs := Int.emod_nonneg n (show 2 * half ≠ 0 by omega)
  have hlt := Int.emod_lt_of_pos n (show 0 < 2 * half by omega)
  obtain ⟨hl, hu⟩ := unwrap_bounds ref hs hlt
  apply eq_of_emod_eq (m := 2 * half)
  · rw [unwrap_emod, Int.emod_emod]
  · rw [abs_lt]
    omega

/-- Only at a distance of exactly half the range does the choice of the nearest number
depend on where the reference stands in its cycle. -/
theorem unwrap_half {half ref s : Int} (hs : 0 ≤ s) (hlt : s < 2 * half)
    (hd : (s - ref) % (2 * half) = half) :
    unwrap half ref s = if ref % (2 * half) < half then ref + half else ref - half := by
  have h0 := Int.emod_nonneg ref (show 2 * half ≠ 0 by omega)
  have h1 := Int.emod_lt_of_pos ref (show 0 < 2 * half by omega)
  have hprev : (s - ref % (2 * half)) % (2 * half) = half := by rw [Int.sub_emod_emod, hd]
  have hcases : s = ref % (2 * half) + half ∨ s = ref % (2 * half) - half := by
    by_cases h : ref % (2 * half) ≤ s
    · left
      rw [Int.emod_eq_of_lt (by omega) (by omega)] at hprev
      omega
    · right
      rw [← Int.add_emod_right, Int.emod_eq_of_lt (by omega) (by omega)] at hprev
      omega
  unfold unwrap
  dsimp only
  rcases hcases with h | h
  · rw [if_neg (show ¬s - ref % (2 * half) > half by omega),
      if_neg (show ¬s - ref % (2 * half) < -half by omega),
      if_pos (show ref % (2 * half) < half by omega)]
    omega
  · rw [if_neg (show ¬s - ref % (2 * half) > half by omega),
      if_neg (show ¬s - ref % (2 * half) < -half by omega),
      if_neg (show ¬ref % (2 * half) < half by omega)]
    omega

theorem unwrap_near {half ref s : Int} (hs : 0 ≤ s) (hlt : s < 2 * half)
    (hd : (s - ref) % (2 * half) ≠ half) : |unwrap half ref s - ref| < half := by
  obtain ⟨hl, hu⟩ := unwrap_bounds ref hs hlt
  have hcong : (unwrap half ref s - ref) % (2 * half) = (s - ref) % (2 * half) := by
    rw [Int.sub_emod, unwrap_emod, ← Int.sub_emod]
  have hne : unwrap half ref s - ref ≠ half := by
    intro h
    rw [h, Int.emod_eq_of_lt (by omega) (by omega)] at hcong
    exact hd hcong.symm
  have hne' : unwrap half ref s - ref ≠ -half := by
    intro h
    rw [h, ← Int.add_emod_right, Int.emod_eq_of_lt (by omega) (by omega)] at hcong
    exact hd (by omega)
  rw [abs_lt]
  omega

/-- Away from that distance, shifting the reference and the residue shifts the result. -/
theorem unwrap_add {half ref s : Int} (k : Int) (hs : 0 ≤ s) (hlt : s < 2 * half)
    (hd : (s - ref) % (2 * half) ≠ half) :
    unwrap half (ref + k) ((s + k) % (2 * half)) = unwrap half ref s + k := by
  have hnear : |unwrap half ref s + k - (ref + k)| < half := by
    rw [Int.add_sub_add_right]
    exact unwrap_near hs hlt hd
  have hres : (s + k) % (2 * half) = (unwrap half ref s + k) % (2 * half) := by
    rw [Int.add_emod, ← unwrap_emod half ref s, ← Int.add_emod]
  rw [hres, unwrap_of_near hnear]

/-- At half the range from the reference, a shift leaves the reference in the same half of
its cycle. -/
def SameSide (half c ref s : Int) : Prop :=
  (s - ref) % (2 * half) = half → (ref % (2 * half) < half ↔ (ref + c) % (2 * half) < half)

instance (half c ref s : Int) : Decidable (SameSide half c ref s) :=
  inferInstanceAs (Decidable (_ → _))

theorem emod_shift {m c k : Int} (hk : k % m = c % m) (s : Int) : (s + c) % m = (s + k) % m := by
  rw [Int.add_emod, ← hk, ← Int.add_emod]

theorem unwrap_half_shift {half ref s c k : Int} (hs : 0 ≤ s) (hlt : s < 2 * half)
    (hk : k % (2 * half) = c % (2 * half)) (hd : (s - ref) % (2 * half) = half) :
    unwrap half (ref + k) ((s + c) % (2 * half)) =
      if (ref + c) % (2 * half) < half then ref + k + half else ref + k - half := by
  have hd' : ((s + c) % (2 * half) - (ref + k)) % (2 * half) = half := by
    rw [emod_shift hk, Int.emod_sub_emod, Int.add_sub_add_right, hd]
  rw [unwrap_half (Int.emod_nonneg _ (by omega)) (Int.emod_lt_of_pos _ (by omega)) hd',
    ← emod_shift hk]

theorem unwrap_shift (half : Int) {ref s c k : Int} (hs : 0 ≤ s) (hlt : s < 2 * half)
    (hk : k % (2 * half) = c % (2 * half)) (h : SameSide half c ref s) :
    unwrap half (ref + k) ((s + c) % (2 * half)) = unwrap half ref s + k := by
  by_cases hd : (s - ref) % (2 * half) = half
  · rw [unwrap_half_shift hs hlt hk hd, unwrap_half hs hlt hd]
    simp only [h hd]
    split
    next => omega
    next => omega
  · rw [emod_shift hk, unwrap_add k hs hlt hd]

/-- When the side changes, one of the two runs raises its largest number and the other
does not. -/
theorem sameSide_of_max_eq {half ref s c k : Int} (hs : 0 ≤ s) (hlt : s < 2 * half)
    (hk : k % (2 * half) = c % (2 * half))
    (h : max (ref + k) (unwrap half (ref + k) ((s + c) % (2 * half))) =
      max ref (unwrap half ref s) + k) : SameSide half c ref s := by
  intro hd
  rw [unwrap_half_shift hs hlt hk hd, unwrap_half hs hlt hd] at h
  by_cases hside : ref % (2 * half) < half
  · by_cases hside' : (ref + c) % (2 * half) < half
    · exact iff_of_true hside hside'
    · rw [if_neg hside', if_pos hside] at h
      omega
  · by_cases hside' : (ref + c) % (2 * half) < half
    · rw [if_pos hside', if_neg hside] at h
      omega
    · exact iff_of_false hside hside'

/-- The number for the next residue, given the largest number so far. -/
def extend (half : Int) (highest : Option Int) (s : Int) : Int :=
  match highest with
  | none => s
  | some ref => unwrap half ref s

/-- The numbers of a sequence of residues, each taken nearest to the largest before it. -/
def unwrapAll (half : Int) (ss : List Int) : List Int :=
  ss.foldl (fun ns s => ns ++ [extend half ns.max? s]) []

theorem unwrapAll_concat (half : Int) (ss : List Int) (s : Int) :
    unwrapAll half (ss ++ [s]) =
      unwrapAll half ss ++ [extend half (unwrapAll half ss).max? s] := by
  simp [unwrapAll]

theorem max?_concat (ns : List Int) (n : Int) :
    (ns ++ [n]).max? = some (ns.max?.elim n (max · n)) := by
  cases ns with
  | nil => rfl
  | cons m ns =>
    rw [List.cons_append, List.max?_cons', List.max?_cons', List.foldl_append]
    rfl

theorem max?_map_add (ns : List Int) (k : Int) :
    (ns.map (· + k)).max? = ns.max?.map (· + k) := by
  induction ns using List.reverseRecOn with
  | nil => rfl
  | append_singleton ns n ih =>
    rw [List.map_append, List.map_singleton, max?_concat, max?_concat, ih]
    cases ns.max? with
    | none => rfl
    | some m =>
      have hmax : max (m + k) (n + k) = max m n + k := by omega
      simp [hmax]

@[simp] theorem length_unwrapAll (half : Int) (ss : List Int) :
    (unwrapAll half ss).length = ss.length := by
  induction ss using List.reverseRecOn with
  | nil => rfl
  | append_singleton ss s ih => simp [unwrapAll_concat, ih]

theorem head?_unwrapAll (half : Int) (ss : List Int) :
    (unwrapAll half ss).head? = ss.head? := by
  induction ss using List.reverseRecOn with
  | nil => rfl
  | append_singleton ss s ih =>
    cases ss with
    | nil => rfl
    | cons r ss => rw [unwrapAll_concat, List.head?_append, ih]; rfl

theorem extend_emod (half : Int) (highest : Option Int) (s : Int) :
    extend half highest s % (2 * half) = s % (2 * half) := by
  cases highest with
  | none => rfl
  | some ref => exact unwrap_emod half ref s

/-- Numbers that each stay within half the range of the largest before them are recovered
from their residues. -/
theorem unwrapAll_of_near (half : Int) {ns : List Int}
    (hfirst : ∀ n, ns.head? = some n → 0 ≤ n ∧ n < 2 * half)
    (hnear : ∀ i n m, ns[i]? = some n → (ns.take i).max? = some m → |n - m| < half) :
    unwrapAll half (ns.map (· % (2 * half))) = ns := by
  induction ns using List.reverseRecOn with
  | nil => rfl
  | append_singleton ns n ih =>
    have hprev : unwrapAll half (ns.map (· % (2 * half))) = ns := by
      apply ih
      · intro m hm
        exact hfirst m (by rw [List.head?_append, hm]; rfl)
      · intro i k m hk hm
        have hi : i < ns.length := List.getElem?_eq_some_iff.mp hk |>.1
        apply hnear i k m
        · rw [List.getElem?_append_left hi, hk]
        · rw [List.take_append_of_le_length hi.le, hm]
    rw [List.map_append, List.map_singleton, unwrapAll_concat, hprev]
    cases hmax : ns.max? with
    | none =>
      cases List.max?_eq_none_iff.mp hmax
      obtain ⟨h0, h1⟩ := hfirst n rfl
      simp [extend, Int.emod_eq_of_lt h0 h1]
    | some m =>
      have h := hnear ns.length n m (by simp) (by simpa using hmax)
      simp [extend, unwrap_of_near h]

/-- Every number is less than half the range away from the largest number before it. -/
def StaysNear (half : Int) (ns : List Int) : Prop :=
  ∀ i n m, ns[i]? = some n → (ns.take i).max? = some m → |n - m| < half

theorem StaysNear.map_add {half : Int} {ns : List Int} (h : StaysNear half ns) (k : Int) :
    StaysNear half (ns.map (· + k)) := by
  intro i n m hn hm
  rw [List.getElem?_map, Option.map_eq_some_iff] at hn
  rw [← List.map_take, max?_map_add, Option.map_eq_some_iff] at hm
  obtain ⟨n', hn', rfl⟩ := hn
  obtain ⟨m', hm', rfl⟩ := hm
  rw [Int.add_sub_add_right]
  exact h i n' m' hn' hm'

/-- Wherever such numbers start, they are recovered up to whole cycles. -/
theorem unwrapAll_of_staysNear {half : Int} {ns : List Int} (hhalf : 0 < half)
    (h : StaysNear half ns) : ∃ k, unwrapAll half (ns.map (· % (2 * half))) = ns.map (· + k) := by
  cases ns with
  | nil => exact ⟨0, rfl⟩
  | cons first ns =>
    -- the cycles below the first number
    have hdiv := Int.emod_add_mul_ediv first (2 * half)
    have h0 := Int.emod_nonneg first (show 2 * half ≠ 0 by omega)
    have h1 := Int.emod_lt_of_pos first (show 0 < 2 * half by omega)
    refine ⟨2 * half * -(first / (2 * half)), ?_⟩
    have hres : (first :: ns).map (· % (2 * half)) =
        ((first :: ns).map (· + 2 * half * -(first / (2 * half)))).map (· % (2 * half)) := by
      rw [List.map_map]
      exact List.map_congr_left fun n _ => (Int.add_mul_emod_self_left _ _ _).symm
    rw [hres]
    refine unwrapAll_of_near half (fun n hn => ?_) (h.map_add _)
    have hn : first + 2 * half * -(first / (2 * half)) = n := Option.some.inj hn
    rw [Int.mul_neg] at hn
    omega

/-- The number is the one that the comparisons choose for its residue. -/
def Recovered (half ref n : Int) : Prop :=
  |n - ref| < half ∨ (n = ref + half ∧ ref % (2 * half) < half) ∨
    (n = ref - half ∧ half ≤ ref % (2 * half))

instance (half ref n : Int) : Decidable (Recovered half ref n) :=
  inferInstanceAs (Decidable (_ ∨ _))

theorem unwrap_emod_eq_iff {half ref n : Int} (hhalf : 0 < half) :
    unwrap half ref (n % (2 * half)) = n ↔ Recovered half ref n := by
  have hs := Int.emod_nonneg n (show 2 * half ≠ 0 by omega)
  have hlt := Int.emod_lt_of_pos n (show 0 < 2 * half by omega)
  by_cases hd : (n % (2 * half) - ref) % (2 * half) = half
  · have hfar : ¬|n - ref| < half := by
      rw [Int.emod_sub_emod] at hd
      intro hnear
      obtain ⟨hlo, hhi⟩ := abs_lt.mp hnear
      by_cases hsign : 0 ≤ n - ref
      · rw [Int.emod_eq_of_lt hsign (by omega)] at hd
        omega
      · rw [← Int.add_emod_right, Int.emod_eq_of_lt (by omega) (by omega)] at hd
        omega
    rw [unwrap_half hs hlt hd, Recovered]
    by_cases hside : ref % (2 * half) < half
    · rw [if_pos hside]
      omega
    · rw [if_neg hside]
      omega
  · have hnear := unwrap_near hs hlt hd
    constructor
    · intro h
      rw [h] at hnear
      exact .inl hnear
    · rintro (h | ⟨rfl, -⟩ | ⟨rfl, -⟩)
      · exact unwrap_of_near h
      · rw [Int.emod_sub_emod, add_sub_cancel_left,
          Int.emod_eq_of_lt (by omega) (by omega)] at hd
        omega
      · rw [Int.emod_sub_emod, show ref - half - ref = -half by omega, ← Int.add_emod_right,
          Int.emod_eq_of_lt (by omega) (by omega)] at hd
        omega

/-- What holds at every position of a list against the entries before it. -/
theorem forall_getElem?_concat {p : List Int → Int → Prop} {xs : List Int} {x : Int} :
    (∀ i y, (xs ++ [x])[i]? = some y → p ((xs ++ [x]).take i) y) ↔
      (∀ i y, xs[i]? = some y → p (xs.take i) y) ∧ p xs x := by
  constructor
  · intro h
    refine ⟨fun i y hy => ?_, ?_⟩
    · have hi := (List.getElem?_eq_some_iff.mp hy).1
      have hp := h i y (by rw [List.getElem?_append_left hi, hy])
      rwa [List.take_append_of_le_length hi.le] at hp
    · have hp := h xs.length x (by simp)
      rwa [List.take_left] at hp
  · rintro ⟨h, hx⟩ i y hy
    rcases Nat.lt_or_ge i xs.length with hi | hi
    · rw [List.getElem?_append_left hi] at hy
      rw [List.take_append_of_le_length hi.le]
      exact h i y hy
    · have hlt := (List.getElem?_eq_some_iff.mp hy).1
      rw [List.length_append, List.length_singleton] at hlt
      obtain rfl : i = xs.length := by omega
      rw [List.take_left]
      rw [List.getElem?_concat_length] at hy
      cases hy
      exact hx

/-- Which numbers are recovered from their residues, in terms of each number and the largest
before it. -/
theorem unwrapAll_eq_iff {half : Int} {ns : List Int} (hhalf : 0 < half) :
    unwrapAll half (ns.map (· % (2 * half))) = ns ↔
      (∀ first, ns.head? = some first → 0 ≤ first ∧ first < 2 * half) ∧
      ∀ i n, ns[i]? = some n → ∀ m, (ns.take i).max? = some m → Recovered half m n := by
  induction ns using List.reverseRecOn with
  | nil => simp [unwrapAll]
  | append_singleton ns n ih =>
    have hsplit : unwrapAll half ((ns ++ [n]).map (· % (2 * half))) = ns ++ [n] ↔
        unwrapAll half (ns.map (· % (2 * half))) = ns ∧
          extend half ns.max? (n % (2 * half)) = n := by
      rw [List.map_append, List.map_singleton, unwrapAll_concat]
      constructor
      · intro h
        obtain ⟨hns, hn⟩ := List.append_inj' h rfl
        rw [hns] at hn
        exact ⟨hns, List.singleton_inj.mp hn⟩
      · rintro ⟨hns, hn⟩
        rw [hns, hn]
    rw [hsplit, ih, forall_getElem?_concat
      (p := fun earlier n => ∀ m, earlier.max? = some m → Recovered half m n)]
    cases hmax : ns.max? with
    | none =>
      cases List.max?_eq_none_iff.mp hmax
      have h0 := Int.emod_nonneg n (show 2 * half ≠ 0 by omega)
      have h1 := Int.emod_lt_of_pos n (show 0 < 2 * half by omega)
      simp only [extend, List.head?_nil, List.nil_append, List.head?_cons]
      constructor
      · rintro ⟨-, hn⟩
        refine ⟨fun first hfirst => ?_, by simp⟩
        cases hfirst
        omega
      · rintro ⟨hfirst, -⟩
        have hn := hfirst n rfl
        exact ⟨by simp, Int.emod_eq_of_lt hn.1 hn.2⟩
    | some m =>
      have hne : ns ≠ [] := by
        rintro rfl
        cases hmax
      have hhead : (ns ++ [n]).head? = ns.head? := by
        cases ns with
        | nil => exact absurd rfl hne
        | cons first ns => rfl
      rw [extend, unwrap_emod_eq_iff hhalf, hhead, and_assoc]
      simp

end SerialNumber
