import Croutine.Lib.Random
import Croutine.TryPhase

/-!
# The order in which a select tries its cases

`shuffle_indices` is a Fisher–Yates shuffle over a xorshift generator of the thread.  An order
comes up for one vector of remainders of the generator's words and for no other; and the
generator does not fall into zero, where it would be seeded again, but runs in a cycle.
-/

namespace Croutine

/-! ## The shuffle -/

/-- The state of the generator after some calls of `select_rng_next`.  `seeds` are the task
pointer and the clock as each call would find them. -/
def rngAfter (seeds : Nat → UInt64) (st : UInt64) : Nat → UInt64
  | 0 => st
  | k + 1 => selectRngNext (seeds k) (rngAfter seeds st k)

/-- The remainder drawn for position `i` when `n` indices are shuffled. -/
def drawnFor (seed st : UInt64) (n i : Nat) : Nat :=
  (rngAfter (fun _ => seed) st (n - i)).toNat % (i + 1)

/-- The generator after one more call, from the front. -/
theorem rngAfter_succ (seed st : UInt64) : ∀ k, rngAfter (fun _ => seed) st (k + 1) =
    rngAfter (fun _ => seed) (selectRngNext seed st) k := by
  intro k
  induction k with
  | zero => rfl
  | succ m ih =>
      rw [rngAfter, ih]
      rfl

/-- Every draw of the shuffle is at most its position. -/
theorem drawnFor_bounded (seed st : UInt64) (n : Nat) :
    Shuffle.Bounded (drawnFor seed st n) n :=
  fun i _ => Nat.le_of_lt_succ (Nat.mod_lt _ (Nat.succ_pos i))

/-- `shuffle_indices` is the Fisher–Yates shuffle of the generator's remainders. -/
theorem shuffleIndices_eq (seed : UInt64) :
    ∀ (n : Nat) (st : UInt64) (idx : Array Nat),
      shuffleIndices seed n st idx = Shuffle.fisherYates (drawnFor seed st n) n idx := by
  intro n
  induction n with
  | zero => exact fun _ _ => rfl
  | succ i ih =>
      intro st idx
      rw [shuffleIndices, Shuffle.fisherYates]
      split
      · next hi =>
        -- the source makes no draw for the first position, where it could only be itself
        subst hi
        have hself : drawnFor seed st 1 0 = 0 := Nat.mod_one _
        rw [Shuffle.fisherYates, hself, Array.swapIfInBounds_def]
        split
        · grind
        · rfl
      · have hlast : drawnFor seed st (i + 1) i = (selectRngNext seed st).toNat % (i + 1) := by
          rw [drawnFor, Nat.add_sub_cancel_left]
          rfl
        rw [ih, hlast]
        refine Shuffle.fisherYates_congr i _ fun k hk => ?_
        rw [drawnFor, drawnFor, Nat.succ_sub (Nat.le_of_lt hk), rngAfter_succ]

/-- The order of the cases is the arrangement that the draws make. -/
theorem selectOrder_eq {choice : SelectChoice} {n : Nat} (hn : n ≤ 2 ^ 32)
    (hok : n ≤ 32 ∨ choice.orderOk = true) :
    selectOrder choice n =
      (List.range n).map (Shuffle.swaps (drawnFor choice.seed choice.rng n) n) := by
  have hb := drawnFor_bounded choice.seed choice.rng n
  unfold selectOrder
  dsimp only
  rw [if_pos (by simpa using hok), source_eq hn, shuffleIndices_eq]
  refine List.ext_getElem? fun k => ?_
  rw [Array.getElem?_toList, Shuffle.fisherYates_getElem? n hb (by simp), List.getElem?_map,
    List.getElem?_toArray]
  by_cases hk : k < n
  · have hlt := Shuffle.swaps_lt hb hk
    rw [List.getElem?_range hk, List.getElem?_range hlt]
    rfl
  · rw [Shuffle.swaps_fixed hb k (Nat.le_of_not_lt hk),
      List.getElem?_eq_none (by simpa using Nat.le_of_not_lt hk)]
    rfl

/-- **The shuffle is one to one between draws and orders.**  A select tries its cases in the
Fisher–Yates arrangement of the remainders that its generator gives.  Every arrangement of the
`n` cases is that of exactly one vector of remainders, one for each position and not above it,
and a select tries its cases in this order if and only if the generator gives that vector.
Which vectors the generator gives is another matter. -/
theorem select_order_one_to_one {n : Nat} (hn : n ≤ 2 ^ 32) :
    (∀ choice : SelectChoice, n ≤ 32 ∨ choice.orderOk = true →
      selectOrder choice n =
        (List.range n).map (Shuffle.swaps (drawnFor choice.seed choice.rng n) n) ∧
      ∀ i < n, drawnFor choice.seed choice.rng n i ≤ i) ∧
    ∀ l : List Nat, l.Perm (List.range n) →
      ∃! v : Shuffle.Draws n, (List.range n).map (Shuffle.swaps v.toFun n) = l ∧
        ∀ choice : SelectChoice, n ≤ 32 ∨ choice.orderOk = true →
          (selectOrder choice n = l ↔
            ∀ i : Fin n, drawnFor choice.seed choice.rng n i = v i) := by
  refine ⟨fun choice hok => ⟨selectOrder_eq hn hok, drawnFor_bounded _ _ n⟩, fun l hl => ?_⟩
  obtain ⟨v, hv, hunique⟩ := Shuffle.existsUnique_draws hl
  refine ⟨v, ⟨hv, fun choice hok => ?_⟩, fun v' hv' => hunique v' hv'.1⟩
  rw [selectOrder_eq hn hok, ← hv]
  constructor
  · intro heq i
    refine (Shuffle.swaps_inj (drawnFor_bounded _ _ n) v.bounded (fun k hk => ?_) i i.isLt).trans
      (v.toFun_val i)
    exact List.map_inj_left.mp heq k (List.mem_range.mpr hk)
  · intro heq
    rw [Shuffle.swaps_congr fun i hi => (heq ⟨i, hi⟩).trans (v.toFun_val ⟨i, hi⟩).symm]

/-- With three cases, the order that starts with the last one. -/
theorem select_order_one_to_one_last_first :
    ∃! v : Shuffle.Draws 3, (List.range 3).map (Shuffle.swaps v.toFun 3) = [2, 0, 1] ∧
      ∀ choice : SelectChoice, 3 ≤ 32 ∨ choice.orderOk = true →
        (selectOrder choice 3 = [2, 0, 1] ↔
          ∀ i : Fin 3, drawnFor choice.seed choice.rng 3 i = v i) :=
  (select_order_one_to_one (by decide)).2 _ (by decide)

/-! ## The generator -/

/-- The part of `select_rng_next` after the seeding. -/
def xorshift (x : UInt64) : UInt64 :=
  let x := x ^^^ (x <<< 13)
  let x := x ^^^ (x >>> 7)
  x ^^^ (x <<< 17)

/-- The shift register loses no state. -/
theorem xorshift_injective : Function.Injective xorshift := by
  have hleft : ∀ k : UInt64, 0 < k.toNat % 64 →
      Function.Injective fun x : UInt64 => x ^^^ (x <<< k) := by
    intro k hk x y h
    have hbits := congrArg UInt64.toBitVec h
    simp only [UInt64.toBitVec_xor, UInt64.toBitVec_shiftLeft, BitVec.shiftLeft_eq'] at hbits
    refine UInt64.toBitVec_inj.mp (Xorshift.left_injective ?_ hbits)
    simpa using hk
  have hright : Function.Injective fun x : UInt64 => x ^^^ (x >>> 7) := by
    intro x y h
    have hbits := congrArg UInt64.toBitVec h
    simp only [UInt64.toBitVec_xor, UInt64.toBitVec_shiftRight, BitVec.ushiftRight_eq'] at hbits
    exact UInt64.toBitVec_inj.mp (Xorshift.right_injective (by decide) hbits)
  exact (hleft 17 (by decide)).comp (hright.comp (hleft 13 (by decide)))

/-- The generator never returns zero. -/
theorem selectRngNext_ne_zero (seed st : UInt64) : selectRngNext seed st ≠ 0 := by
  have hzero : xorshift 0 = 0 := rfl
  intro h
  have hst := xorshift_injective (h.trans hzero.symm)
  split at hst
  · next hz =>
    split at hst
    · cases hst
    · contradiction
  · contradiction

/-- A generator that is seeded goes on by the shift register. -/
theorem selectRngNext_of_ne_zero {st : UInt64} (hst : st ≠ 0) (seed : UInt64) :
    selectRngNext seed st = xorshift st := by
  rw [selectRngNext, if_neg hst]
  rfl

/-- After the first call the generator only steps. -/
theorem rngAfter_eq_iterate (seeds : Nat → UInt64) (st : UInt64) :
    ∀ k, rngAfter seeds st (k + 1) = xorshift^[k] (selectRngNext (seeds 0) st) := by
  intro k
  induction k with
  | zero => rfl
  | succ m ih =>
      have hne : rngAfter seeds st (m + 1) ≠ 0 := selectRngNext_ne_zero _ _
      rw [rngAfter, selectRngNext_of_ne_zero hne, ih, Function.iterate_succ_apply']

/-- **A thread's generator is seeded once and then runs in a cycle.**  Zero stands for a
generator that has no seed yet, and no call leaves it there: the later words are the same
whatever the task and the clock are by then.  They repeat with a period, so that every word
that came up comes up again. -/
theorem select_rng_cycles (seeds : Nat → UInt64) (st : UInt64) :
    (∀ k, rngAfter seeds st (k + 1) ≠ 0) ∧
    (∀ seeds' : Nat → UInt64, seeds' 0 = seeds 0 → rngAfter seeds' st = rngAfter seeds st) ∧
    ∃ p > 0, ∀ k, rngAfter seeds st (k + 1 + p) = rngAfter seeds st (k + 1) := by
  refine ⟨fun k => ?_, fun seeds' hfirst => ?_, ?_⟩
  · rw [rngAfter]
    exact selectRngNext_ne_zero _ _
  · funext k
    cases k with
    | zero => rfl
    | succ m => rw [rngAfter_eq_iterate, rngAfter_eq_iterate, hfirst]
  · have : Finite UInt64 := Finite.of_injective UInt64.toFin fun _ _ => UInt64.toFin_inj.mp
    obtain ⟨p, hp, hcycle⟩ := xorshift_injective.mem_periodicPts (selectRngNext (seeds 0) st)
    refine ⟨p, hp, fun k => ?_⟩
    rw [Nat.add_right_comm, rngAfter_eq_iterate, rngAfter_eq_iterate,
      Function.iterate_add_apply, hcycle]

end Croutine
