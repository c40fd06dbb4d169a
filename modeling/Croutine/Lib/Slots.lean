import Mathlib.Data.List.Basic

/-!
# Tables of slots

An array whose slots are free or hold an entry with a key.  `Slots.lookup` is the
finite map such a table stands for, and `Slots.Keyed` says that no key is held
twice.  The rules below say what storing into one slot and compacting the table do
to the map.
-/

namespace Slots

variable {α κ : Type} (used : α → Bool) (key : α → κ)

/-- No two slots hold entries with one key. -/
def Keyed (l : List α) : Prop :=
  l.Pairwise fun a b => used a = true → used b = true → key a ≠ key b

variable {used key} {l : List α} {a b e : α} {i : Nat} {k : κ}

/-- A key has one slot. -/
theorem Keyed.index_eq (h : Keyed used key l) {j : Nat} (hi : l[i]? = some a)
    (hj : l[j]? = some b) (ha : used a = true) (hb : used b = true)
    (heq : key a = key b) : i = j := by
  obtain ⟨hi', rfl⟩ := List.getElem?_eq_some_iff.mp hi
  obtain ⟨hj', rfl⟩ := List.getElem?_eq_some_iff.mp hj
  have hpair := List.pairwise_iff_getElem.mp h
  rcases Nat.lt_trichotomy i j with hlt | heq' | hlt
  · exact absurd heq (hpair i j hi' hj' hlt ha hb)
  · exact heq'
  · exact absurd heq.symm (hpair j i hj' hi' hlt hb ha)

/-- Storing `b` keeps keys unique when every other slot holds another key. -/
theorem Keyed.set (h : Keyed used key l)
    (hfresh : used b = true → ∀ j e, j ≠ i → l[j]? = some e → used e = true →
      key e ≠ key b) : Keyed used key (l.set i b) := by
  refine List.pairwise_iff_getElem.mpr ?_
  intro m n hm hn hmn ham han
  rw [List.length_set] at hm hn
  have hpair := List.pairwise_iff_getElem.mp h
  rw [List.getElem_set] at ham han ⊢
  rw [List.getElem_set]
  by_cases him : i = m
  · have hin : i ≠ n := by omega
    rw [if_pos him] at ham ⊢
    rw [if_neg hin] at han ⊢
    exact (hfresh ham n l[n] (Ne.symm hin) (List.getElem?_eq_getElem hn) han).symm
  · rw [if_neg him] at ham ⊢
    by_cases hin : i = n
    · rw [if_pos hin] at han ⊢
      exact hfresh han m l[m] (Ne.symm him) (List.getElem?_eq_getElem hm) ham
    · rw [if_neg hin] at han ⊢
      exact hpair m n hm hn hmn ham han

/-- The entries in use may move to the front of a fresh array. -/
theorem Keyed.compact (h : Keyed used key l) (n : Nat) (hfree : used e = false) :
    Keyed used key (l.filter used ++ List.replicate n e) := by
  have hnot : used e ≠ true := by rw [hfree]; exact Bool.false_ne_true
  refine List.pairwise_append.mpr ⟨List.Pairwise.filter _ h, ?_, ?_⟩
  · exact List.pairwise_replicate.mpr (.inr fun ha => absurd ha hnot)
  · intro a _ b hb _ hused
    rw [List.eq_of_mem_replicate hb] at hused
    exact absurd hused hnot

variable [DecidableEq κ]

/-- The entry held under a key. -/
def lookup (used : α → Bool) (key : α → κ) (l : List α) (k : κ) : Option α :=
  l.find? fun e => used e && key e == k

/-- A lookup fails when no used slot has the key. -/
theorem lookup_eq_none_iff :
    lookup used key l k = none ↔ ∀ e ∈ l, used e = true → key e ≠ k := by
  simp [lookup]

/-- A lookup finds the used slot with the key. -/
theorem lookup_eq_some_iff (h : Keyed used key l) :
    lookup used key l k = some e ↔ e ∈ l ∧ used e = true ∧ key e = k := by
  constructor
  · intro hfind
    have hp := List.find?_some hfind
    simp only [Bool.and_eq_true, beq_iff_eq] at hp
    exact ⟨List.mem_of_find?_eq_some hfind, hp.1, hp.2⟩
  · intro ⟨hmem, hused, hkey⟩
    cases hfind : lookup used key l k with
    | none => exact absurd hkey (lookup_eq_none_iff.mp hfind e hmem hused)
    | some x =>
        have hp := List.find?_some hfind
        simp only [Bool.and_eq_true, beq_iff_eq] at hp
        obtain ⟨i, hi⟩ := List.mem_iff_getElem?.mp (List.mem_of_find?_eq_some hfind)
        obtain ⟨j, hj⟩ := List.mem_iff_getElem?.mp hmem
        have hij := h.index_eq hi hj hp.1 hused (hp.2.trans hkey.symm)
        rw [← hij, hi] at hj
        exact hj

/-- The map after slot `i`, which held `a`, was overwritten by `b`. -/
theorem lookup_set (h : Keyed used key l) (hset : Keyed used key (l.set i b))
    (hi : l[i]? = some a) :
    lookup used key (l.set i b) k =
      if used b = true ∧ key b = k then some b
      else if used a = true ∧ key a = k then none
      else lookup used key l k := by
  have hlt : i < l.length := (List.getElem?_eq_some_iff.mp hi).1
  have hmem : ∀ e, e ∈ l.set i b ↔ e = b ∨ ∃ j, j ≠ i ∧ l[j]? = some e := by
    intro e
    rw [List.mem_iff_getElem?]
    constructor
    · intro ⟨j, hj⟩
      rw [List.getElem?_set] at hj
      by_cases hij : i = j
      · rw [if_pos hij, if_pos (hij ▸ hlt)] at hj
        exact .inl (Option.some.inj hj).symm
      · rw [if_neg hij] at hj
        exact .inr ⟨j, Ne.symm hij, hj⟩
    · intro hcase
      rcases hcase with rfl | ⟨j, hj, hget⟩
      · exact ⟨i, by rw [List.getElem?_set_self hlt]⟩
      · exact ⟨j, by rw [List.getElem?_set_ne (Ne.symm hj)]; exact hget⟩
  split
  · next hb => exact (lookup_eq_some_iff hset).mpr ⟨(hmem b).mpr (.inl rfl), hb⟩
  · next hb =>
    split
    · next ha =>
      refine lookup_eq_none_iff.mpr ?_
      intro e he hused hkey
      rcases (hmem e).mp he with rfl | ⟨j, hj, hget⟩
      · exact hb ⟨hused, hkey⟩
      · exact hj (h.index_eq hget hi hused ha.1 (hkey.trans ha.2.symm))
    · next ha =>
      refine Option.ext fun e => ?_
      rw [lookup_eq_some_iff hset, lookup_eq_some_iff h, hmem e]
      constructor
      · intro ⟨hcase, hp⟩
        rcases hcase with rfl | ⟨j, _, hget⟩
        · exact absurd hp hb
        · exact ⟨List.mem_of_getElem? hget, hp⟩
      · intro ⟨he, hp⟩
        obtain ⟨j, hj⟩ := List.mem_iff_getElem?.mp he
        refine ⟨.inr ⟨j, ?_, hj⟩, hp⟩
        intro hji
        rw [hji, hi] at hj
        exact ha (Option.some.inj hj ▸ hp)

/-- **Compaction.** Moving the used slots to the front changes no lookup. -/
theorem lookup_compact (h : Keyed used key l) (n : Nat) (hfree : used e = false) :
    lookup used key (l.filter used ++ List.replicate n e) k = lookup used key l k := by
  refine Option.ext fun x => ?_
  rw [lookup_eq_some_iff (h.compact n hfree), lookup_eq_some_iff h]
  constructor
  · intro ⟨hmem, hused, hkey⟩
    rcases List.mem_append.mp hmem with hx | hx
    · exact ⟨(List.mem_filter.mp hx).1, hused, hkey⟩
    · rw [List.eq_of_mem_replicate hx, hfree] at hused
      exact absurd hused Bool.false_ne_true
  · intro ⟨hmem, hused, hkey⟩
    exact ⟨List.mem_append.mpr (.inl (List.mem_filter.mpr ⟨hmem, hused⟩)), hused, hkey⟩

end Slots
