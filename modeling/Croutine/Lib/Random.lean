import Mathlib.Data.List.GetD
import Mathlib.Dynamics.PeriodicPts.Lemmas
import Mathlib.Logic.Equiv.Basic

/-!
# Fisher–Yates shuffles and xorshift steps

A Fisher–Yates shuffle swaps each position of an array, from the last one down, with one drawn
among those not above it.  It rearranges the array by `swaps`, a product of transpositions, and
from what comes out every draw can be read back: different draws give different arrangements,
and every arrangement comes from some draws.

A xorshift step adds a shifted copy to a word.  It loses nothing: the bits of the word come
back one after the other, from the end where the shift brought in zeroes.
-/

namespace Shuffle

/-! ## Draws and permutations -/

/-- The permutation made by `n` swaps: position `i` with `draw i`, for `i` from `n - 1` down. -/
def swaps (draw : Nat → Nat) : Nat → Equiv.Perm Nat
  | 0 => 1
  | i + 1 => Equiv.swap i (draw i) * swaps draw i

/-- Each position is swapped with one not above it. -/
def Bounded (draw : Nat → Nat) (n : Nat) : Prop := ∀ i < n, draw i ≤ i

variable {draw draw' : Nat → Nat} {n : Nat}

/-- Fewer draws are bounded as well. -/
theorem Bounded.pred {i : Nat} (h : Bounded draw (i + 1)) : Bounded draw i :=
  fun k hk => h k (Nat.lt_succ_of_lt hk)

/-- Positions above the last draw stay. -/
theorem swaps_fixed (h : Bounded draw n) : ∀ k, n ≤ k → swaps draw n k = k := by
  induction n with
  | zero => exact fun _ _ => rfl
  | succ i ih =>
      intro k hk
      have hd := h i (Nat.lt_succ_self i)
      rw [swaps, Equiv.Perm.mul_apply, ih h.pred k (by omega)]
      exact Equiv.swap_apply_of_ne_of_ne (by omega) (by omega)

/-- Positions below stay below. -/
theorem swaps_lt (h : Bounded draw n) {k : Nat} (hk : k < n) : swaps draw n k < n := by
  by_contra hge
  have heq := (swaps draw n).injective (swaps_fixed h _ (Nat.le_of_not_lt hge))
  omega

/-- The last position goes where its draw says. -/
theorem swaps_last {i : Nat} (h : Bounded draw i) : swaps draw (i + 1) i = draw i := by
  rw [swaps, Equiv.Perm.mul_apply, swaps_fixed h i (Nat.le_refl i), Equiv.swap_apply_left]

/-- Only the draws below matter. -/
theorem swaps_congr (h : ∀ i < n, draw i = draw' i) : swaps draw n = swaps draw' n := by
  induction n with
  | zero => rfl
  | succ i ih =>
      rw [swaps, swaps, h i (Nat.lt_succ_self i), ih fun k hk => h k (Nat.lt_succ_of_lt hk)]

/-- **The draws can be read back.** -/
theorem swaps_inj (h : Bounded draw n) (h' : Bounded draw' n)
    (heq : ∀ k < n, swaps draw n k = swaps draw' n k) : ∀ i < n, draw i = draw' i := by
  induction n with
  | zero => exact fun i hi => absurd hi (Nat.not_lt_zero i)
  | succ m ih =>
      have hlast : draw m = draw' m := by
        have hm := heq m (Nat.lt_succ_self m)
        rwa [swaps_last h.pred, swaps_last h'.pred] at hm
      have hrest : ∀ k < m, swaps draw m k = swaps draw' m k := by
        intro k hk
        have hk' := heq k (Nat.lt_succ_of_lt hk)
        rw [swaps, swaps, hlast, Equiv.Perm.mul_apply, Equiv.Perm.mul_apply] at hk'
        exact (Equiv.swap m (draw' m)).injective hk'
      intro i hi
      rcases Nat.lt_succ_iff_lt_or_eq.mp hi with hlt | rfl
      · exact ih h.pred h'.pred hrest i hlt
      · exact hlast

/-- **Every arrangement has its draws.** -/
theorem exists_swaps : ∀ (n : Nat) {f : Nat → Nat}, f.Injective → (∀ k, n ≤ k → f k = k) →
    ∃ draw, Bounded draw n ∧ ∀ k, swaps draw n k = f k := by
  intro n
  induction n with
  | zero =>
      intro f _ hf
      exact ⟨id, fun i hi => absurd hi (Nat.not_lt_zero i), fun k => (hf k (Nat.zero_le k)).symm⟩
  | succ i ih =>
      intro f hinj hf
      have hle : f i ≤ i := by
        by_contra hlt
        have := hinj (hf (f i) (by omega))
        omega
      -- undo the last swap: then position i is fixed as well
      have hg : ∀ k, i ≤ k → Equiv.swap i (f i) (f k) = k := by
        intro k hk
        rcases Nat.eq_or_lt_of_le hk with rfl | hlt
        · exact Equiv.swap_apply_right ..
        · rw [hf k hlt]
          exact Equiv.swap_apply_of_ne_of_ne (by omega) (by omega)
      obtain ⟨draw, hb, hdraw⟩ := ih ((Equiv.injective _).comp hinj) hg
      refine ⟨Function.update draw i (f i), fun k hk => ?_, fun k => ?_⟩
      · rcases Nat.lt_succ_iff_lt_or_eq.mp hk with hlt | rfl
        · rw [Function.update_of_ne (Nat.ne_of_lt hlt)]
          exact hb k hlt
        · rw [Function.update_self]
          exact hle
      · have hsame : swaps (Function.update draw i (f i)) i = swaps draw i :=
          swaps_congr fun j hj => Function.update_of_ne (Nat.ne_of_lt hj) ..
        rw [swaps, Equiv.Perm.mul_apply, hsame, hdraw k, Function.update_self]
        exact Equiv.swap_apply_self ..

/-- A list with the numbers below `n`, each once, is made by the swaps of some draws. -/
theorem exists_map_swaps {l : List Nat} (hl : l.Perm (List.range n)) :
    ∃ draw, Bounded draw n ∧ (List.range n).map (swaps draw n) = l := by
  have hlength : l.length = n := by rw [hl.length_eq, List.length_range]
  have hin : ∀ {k : Nat}, k < n → l.getD k k < n := by
    intro k hk
    rw [List.getD_eq_getElem _ _ (by rwa [hlength])]
    exact List.mem_range.mp (hl.mem_iff.mp (List.getElem_mem _))
  have hout : ∀ k, n ≤ k → l.getD k k = k := by
    intro k hk
    exact List.getD_eq_default _ _ (by rwa [hlength])
  have hinj : Function.Injective fun k => l.getD k k := by
    intro j k hjk
    dsimp only at hjk
    by_cases hj : j < n
    · by_cases hk : k < n
      · rw [List.getD_eq_getElem _ _ (by rwa [hlength]),
          List.getD_eq_getElem _ _ (by rwa [hlength])] at hjk
        exact (hl.nodup_iff.mpr List.nodup_range).getElem_inj_iff.mp hjk
      · have hlt := hin hj
        rw [hjk, hout k (Nat.le_of_not_lt hk)] at hlt
        exact absurd hlt hk
    · by_cases hk : k < n
      · have hlt := hin hk
        rw [← hjk, hout j (Nat.le_of_not_lt hj)] at hlt
        exact absurd hlt hj
      · rwa [hout j (Nat.le_of_not_lt hj), hout k (Nat.le_of_not_lt hk)] at hjk
  obtain ⟨draw, hb, hdraw⟩ := exists_swaps n hinj hout
  refine ⟨draw, hb, List.ext_getElem (by simp [hlength]) fun k hk hk' => ?_⟩
  rw [List.getElem_map, List.getElem_range, hdraw k, List.getD_eq_getElem]

/-- One draw for each of `n` positions, among those not above it. -/
abbrev Draws (n : Nat) : Type := (i : Fin n) → Fin (i + 1)

/-- The draws of a vector. -/
def Draws.toFun (v : Draws n) (i : Nat) : Nat := if h : i < n then v ⟨i, h⟩ else 0

/-- The draws of a vector at its own positions. -/
theorem Draws.toFun_val (v : Draws n) (i : Fin n) : v.toFun i = v i := dif_pos i.isLt

/-- The draws of a vector are bounded. -/
theorem Draws.bounded (v : Draws n) : Bounded v.toFun n := by
  intro i hi
  rw [v.toFun_val ⟨i, hi⟩]
  exact Nat.le_of_lt_succ (v ⟨i, hi⟩).isLt

/-- **A list with the numbers below `n`, each once, is made by one vector of draws** and by no
other. -/
theorem existsUnique_draws {l : List Nat} (hl : l.Perm (List.range n)) :
    ∃! v : Draws n, (List.range n).map (swaps v.toFun n) = l := by
  obtain ⟨draw, hb, hmap⟩ := exists_map_swaps hl
  have hsame : ∀ i < n, Draws.toFun
      (fun i : Fin n => ⟨draw i, Nat.lt_succ_of_le (hb i i.isLt)⟩) i = draw i :=
    fun i hi => Draws.toFun_val _ ⟨i, hi⟩
  refine ⟨_, (swaps_congr hsame).symm ▸ hmap, fun v hv => funext fun i => ?_⟩
  have heq : ∀ k < n, swaps v.toFun n k = swaps draw n k := fun k hk =>
    List.map_inj_left.mp (hv.trans hmap.symm) k (List.mem_range.mpr hk)
  exact Fin.ext ((v.toFun_val i).symm.trans (swaps_inj v.bounded hb heq i i.isLt))

/-! ## Arrays -/

variable {α : Type}

/-- Swap each position of an array, from `n - 1` down, with the one drawn for it. -/
def fisherYates (draw : Nat → Nat) : Nat → Array α → Array α
  | 0, a => a
  | i + 1, a => fisherYates draw i (a.swapIfInBounds i (draw i))

/-- Only the draws below matter to the shuffle. -/
theorem fisherYates_congr :
    ∀ (n : Nat) (a : Array α), (∀ i < n, draw i = draw' i) →
      fisherYates draw n a = fisherYates draw' n a := by
  intro n
  induction n with
  | zero => exact fun _ _ => rfl
  | succ i ih =>
      intro a h
      rw [fisherYates, fisherYates, h i (Nat.lt_succ_self i)]
      exact ih _ fun k hk => h k (Nat.lt_succ_of_lt hk)

/-- A swap of the array moves elements as the transposition does. -/
theorem getElem?_swapIfInBounds {a : Array α} {i j : Nat} (hi : i < a.size) (hj : j < a.size)
    (k : Nat) : (a.swapIfInBounds i j)[k]? = a[Equiv.swap i j k]? := by
  by_cases hk : k < a.size
  · rw [Array.getElem?_eq_getElem (by rwa [Array.size_swapIfInBounds]),
      Array.getElem_swapIfInBounds]
    by_cases hki : k = i
    · subst hki
      rw [Equiv.swap_apply_left, dif_pos ⟨rfl, hj⟩, Array.getElem?_eq_getElem hj]
    · by_cases hkj : k = j
      · subst hkj
        rw [Equiv.swap_apply_right, dif_neg (fun h => hki h.1), dif_pos ⟨rfl, hi⟩,
          Array.getElem?_eq_getElem hi]
      · rw [Equiv.swap_apply_of_ne_of_ne hki hkj, dif_neg (fun h => hki h.1),
          dif_neg (fun h => hkj h.1), Array.getElem?_eq_getElem hk]
  · rw [Equiv.swap_apply_of_ne_of_ne (by omega) (by omega),
      Array.getElem?_eq_none (by rw [Array.size_swapIfInBounds]; omega),
      Array.getElem?_eq_none (by omega)]

/-- A shuffle rearranges the array by its swaps. -/
theorem fisherYates_getElem? : ∀ (n : Nat) {a : Array α}, Bounded draw n → n ≤ a.size →
    ∀ k, (fisherYates draw n a)[k]? = a[swaps draw n k]? := by
  intro n
  induction n with
  | zero => exact fun _ _ _ => rfl
  | succ i ih =>
      intro a hb hn k
      have hd := hb i (Nat.lt_succ_self i)
      rw [fisherYates, ih hb.pred (by rw [Array.size_swapIfInBounds]; omega),
        getElem?_swapIfInBounds (by omega) (by omega), swaps, Equiv.Perm.mul_apply]

end Shuffle

/-! ## Xorshift -/

namespace Xorshift

variable {w k : Nat}

/-- **A left xorshift loses nothing**: a bit is the bit of the result once those below are
known. -/
theorem left_injective (hk : 0 < k) :
    Function.Injective fun x : BitVec w => x ^^^ (x <<< k) := by
  intro x y h
  have hbits : ∀ i, x.getLsbD i = y.getLsbD i := by
    intro i
    induction i using Nat.strong_induction_on with
    | _ i ih =>
        have hi := congrArg (BitVec.getLsbD · i) h
        simp only [BitVec.getLsbD_xor, BitVec.getLsbD_shiftLeft] at hi
        by_cases hik : i < k
        · simpa [hik] using hi
        · rw [ih (i - k) (by omega)] at hi
          exact Bool.xor_left_inj.mp hi
  exact BitVec.eq_of_getLsbD_eq fun i _ => hbits i

/-- **A right xorshift loses nothing**: a bit is the bit of the result once those above are
known. -/
theorem right_injective (hk : 0 < k) :
    Function.Injective fun x : BitVec w => x ^^^ (x >>> k) := by
  intro x y h
  have hbits : ∀ d i, w ≤ i + d → x.getLsbD i = y.getLsbD i := by
    intro d
    induction d using Nat.strong_induction_on with
    | _ d ih =>
        intro i hi
        by_cases hiw : w ≤ i
        · rw [BitVec.getLsbD_of_ge x i hiw, BitVec.getLsbD_of_ge y i hiw]
        · have hbit := congrArg (BitVec.getLsbD · i) h
          simp only [BitVec.getLsbD_xor, BitVec.getLsbD_ushiftRight] at hbit
          rw [ih (d - 1) (by omega) (k + i) (by omega)] at hbit
          exact Bool.xor_left_inj.mp hbit
  exact BitVec.eq_of_getLsbD_eq fun i _ => hbits w i (by omega)

end Xorshift
