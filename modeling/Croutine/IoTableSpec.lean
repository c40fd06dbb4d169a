import Mathlib.Data.List.Count
import Croutine.Lib.Slots
import Croutine.IoWaitTable

/-!
# The I/O wait table as a map

The array of entries stands for a map from descriptors to entries.  In a valid
table no descriptor has two entries and `count` is the number of entries in use,
and every operation of the table is an operation of the map.
-/

namespace Croutine

namespace IoWaitTable

/-- The entry of a descriptor. -/
def lookup (table : IoWaitTable) (fd : Int) : Option IoWaitEntry :=
  Slots.lookup (·.inUse) (·.fd) table.entries fd

structure Valid (table : IoWaitTable) : Prop where
  keyed : Slots.Keyed (·.inUse) (·.fd) table.entries
  counted : table.count = table.entries.countP (·.inUse)

/-- A lookup finds the used entry of the descriptor. -/
theorem Valid.lookup_eq_some_iff {table : IoWaitTable} (h : table.Valid) {fd : Int}
    {e : IoWaitEntry} : table.lookup fd = some e ↔ e ∈ table.used ∧ e.fd = fd := by
  unfold lookup used
  rw [Slots.lookup_eq_some_iff h.keyed, List.mem_filter]
  exact and_assoc.symm

end IoWaitTable

variable {table : IoWaitTable} {fd : Int} {i : Nat}

/-- `find` fails when the descriptor has no entry. -/
theorem ioWaitTableFind_none (h : ioWaitTableFind table fd = none) :
    table.lookup fd = none := by
  unfold ioWaitTableFind at h
  rw [List.findIdx?_eq_none_iff] at h
  refine Slots.lookup_eq_none_iff.mpr ?_
  intro e he hused hfd
  have hne := h e he
  rw [hused, hfd] at hne
  simp at hne

/-- `find` gives the index of the descriptor's entry. -/
theorem ioWaitTableFind_some (hv : table.Valid) (h : ioWaitTableFind table fd = some i) :
    ∃ e, table.entries[i]? = some e ∧ e.inUse = true ∧ e.fd = fd ∧
      table.lookup fd = some e := by
  unfold ioWaitTableFind at h
  obtain ⟨hlt, hp, _⟩ := List.findIdx?_eq_some_iff_getElem.mp h
  simp only [Bool.and_eq_true, beq_iff_eq] at hp
  exact ⟨table.entries[i], List.getElem?_eq_getElem hlt, hp.1, hp.2,
    (Slots.lookup_eq_some_iff hv.keyed).mpr ⟨List.getElem_mem hlt, hp⟩⟩

/-- The number of entries in use after slot `i`, which held `e`, was overwritten. -/
theorem countP_set_inUse {e : IoWaitEntry} (e' : IoWaitEntry) (hi : table.entries[i]? = some e) :
    (table.entries.set i e').countP (·.inUse) + (if e.inUse then 1 else 0) =
      table.entries.countP (·.inUse) + (if e'.inUse then 1 else 0) := by
  obtain ⟨hlt, rfl⟩ := List.getElem?_eq_some_iff.mp hi
  rw [List.countP_set hlt]
  have hpos : table.entries[i].inUse = true → 0 < table.entries.countP (·.inUse) :=
    fun hused => List.countP_pos_iff.mpr ⟨_, List.getElem_mem hlt, hused⟩
  by_cases hused : table.entries[i].inUse = true
  · have := hpos hused
    simp only [hused, if_true]
    omega
  · simp [hused]

namespace IoWaitTable.Valid

variable {e e' : IoWaitEntry}

/-- An entry is overwritten by one for the same descriptor. -/
theorem store (h : table.Valid) (hi : table.entries[i]? = some e) (hused : e.inUse = true)
    (hused' : e'.inUse = true) (hfd : e'.fd = e.fd) :
    (table.setEntry i e').Valid ∧
      ∀ g, (table.setEntry i e').lookup g = if g = e.fd then some e' else table.lookup g := by
  have hkeyed : Slots.Keyed (·.inUse) (·.fd) (table.entries.set i e') := by
    refine h.keyed.set ?_
    intro _ j x hj hx hxused hxfd
    exact hj (h.keyed.index_eq hx hi hxused hused (hxfd.trans hfd))
  refine ⟨⟨hkeyed, ?_⟩, ?_⟩
  · have hcount := countP_set_inUse e' hi
    rw [hused, hused'] at hcount
    have hold := h.counted
    show table.count = (table.entries.set i e').countP (·.inUse)
    omega
  · intro g
    have hset := Slots.lookup_set (k := g) h.keyed hkeyed hi
    refine hset.trans ?_
    by_cases hg : g = e.fd
    · rw [if_pos ⟨hused', hfd.trans hg.symm⟩, if_pos hg]
    · rw [if_neg (fun hp => hg (hp.2.symm.trans hfd)), if_neg (fun hp => hg hp.2.symm),
        if_neg hg]
      rfl

/-- **Removal.** The table stays valid and loses the descriptor alone. -/
theorem remove (h : table.Valid) (hi : table.entries[i]? = some e) (hused : e.inUse = true) :
    (ioWaitTableRemoveEntry table i).Valid ∧
      ∀ g, (ioWaitTableRemoveEntry table i).lookup g =
        if g = e.fd then none else table.lookup g := by
  have heq : ioWaitTableRemoveEntry table i =
      ⟨table.entries.set i ioWaitEntryReset, table.count - 1⟩ := by
    unfold ioWaitTableRemoveEntry
    rw [hi]
    exact if_pos hused
  rw [heq]
  have hfree : ioWaitEntryReset.inUse = false := rfl
  have hkeyed : Slots.Keyed (·.inUse) (·.fd) (table.entries.set i ioWaitEntryReset) :=
    h.keyed.set fun habs => absurd habs (by rw [hfree]; exact Bool.false_ne_true)
  refine ⟨⟨hkeyed, ?_⟩, ?_⟩
  · have hcount := countP_set_inUse ioWaitEntryReset hi
    rw [hused, hfree] at hcount
    have hold := h.counted
    show table.count - 1 = (table.entries.set i ioWaitEntryReset).countP (·.inUse)
    simp only [if_true, Bool.false_eq_true, if_false] at hcount
    omega
  · intro g
    have hset := Slots.lookup_set (k := g) h.keyed hkeyed hi
    refine hset.trans ?_
    rw [if_neg (fun hp => absurd hp.1 (by rw [hfree]; exact Bool.false_ne_true))]
    by_cases hg : g = e.fd
    · rw [if_pos ⟨hused, hg.symm⟩, if_pos hg]
    · rw [if_neg (fun hp => hg hp.2.symm), if_neg hg]
      rfl

/-- A new entry for a descriptor that has none. -/
theorem claim (h : table.Valid) (e' : IoWaitEntry) (hfresh : table.lookup fd = none)
    (hi : table.entries[i]? = some e) (hfree : e.inUse = false)
    (hused' : e'.inUse = true) (hfd : e'.fd = fd) :
    (IoWaitTable.mk (table.entries.set i e') (table.count + 1)).Valid ∧
      ∀ g, (IoWaitTable.mk (table.entries.set i e') (table.count + 1)).lookup g =
        if g = fd then some e' else table.lookup g := by
  have hkeyed : Slots.Keyed (·.inUse) (·.fd) (table.entries.set i e') := by
    refine h.keyed.set ?_
    intro _ j x _ hx hxused hxfd
    exact Slots.lookup_eq_none_iff.mp hfresh x (List.mem_of_getElem? hx) hxused
      (hxfd.trans hfd)
  refine ⟨⟨hkeyed, ?_⟩, ?_⟩
  · have hcount := countP_set_inUse e' hi
    rw [hfree, hused'] at hcount
    have hold := h.counted
    show table.count + 1 = (table.entries.set i e').countP (·.inUse)
    simp only [if_true, Bool.false_eq_true, if_false] at hcount
    omega
  · intro g
    have hset := Slots.lookup_set (k := g) h.keyed hkeyed hi
    refine hset.trans ?_
    by_cases hg : g = fd
    · rw [if_pos ⟨hused', hfd.trans hg.symm⟩, if_pos hg]
    · rw [if_neg (fun hp => hg (hp.2.symm.trans hfd)),
        if_neg (fun hp => absurd hp.1 (by rw [hfree]; exact Bool.false_ne_true)), if_neg hg]
      rfl

/-- **Growth.** A larger table is valid and has the same entries. -/
theorem grow {allocOk : Bool} {grown : IoWaitTable} (h : table.Valid)
    (hgrow : ioWaitTableGrow allocOk table = some grown) :
    grown.Valid ∧ ∀ g, grown.lookup g = table.lookup g := by
  unfold ioWaitTableGrow at hgrow
  dsimp only at hgrow
  by_cases halloc : allocOk = true
  · rw [if_pos halloc] at hgrow
    cases hgrow
    have hfree : ioWaitEntryReset.inUse = false := rfl
    refine ⟨⟨h.keyed.compact _ hfree, ?_⟩, fun g => Slots.lookup_compact h.keyed _ hfree⟩
    show table.used.length = _
    rw [List.countP_append, List.countP_replicate, hfree, IoWaitTable.used,
      List.countP_filter, List.countP_eq_length_filter]
    simp
  · rw [if_neg halloc] at hgrow
    exact absurd hgrow (by simp)

end IoWaitTable.Valid

/-- A table that was grown has a free slot. -/
theorem ioWaitTableGrow_room {allocOk : Bool} {grown : IoWaitTable}
    (hgrow : ioWaitTableGrow allocOk table = some grown) : grown.count ≠ grown.capacity := by
  have hle : table.used.length ≤ table.capacity := List.length_filter_le _ _
  unfold ioWaitTableGrow at hgrow
  dsimp only at hgrow
  split at hgrow
  · cases hgrow
    show table.used.length ≠ (table.used ++ List.replicate _ ioWaitEntryReset).length
    rw [List.length_append, List.length_replicate]
    split
    · omega
    · omega
  · exact absurd hgrow (by simp)

/-- The entry `get_or_insert` stores for a descriptor that has none. -/
def freshIoWaitEntry (fd : Int) : IoWaitEntry := ⟨fd, none, none, true⟩

/-- What `get_or_insert` returns: the entry of the descriptor, which is the one it
had or a fresh one, or nothing and the same map. -/
structure Inserted (table : IoWaitTable) (fd : Int) (table' : IoWaitTable) (i : Nat)
    (e : IoWaitEntry) : Prop where
  valid : table'.Valid
  entry : table'.entries[i]? = some e
  inUse : e.inUse = true
  fdEq : e.fd = fd
  origin : table.lookup fd = some e ∨ (table.lookup fd = none ∧ e = freshIoWaitEntry fd)
  lookup : ∀ g, table'.lookup g = if g = fd then some e else table.lookup g

/-- **A free slot is found** whenever the count is not the capacity. -/
theorem ioWaitTableClaim_isSome (h : table.Valid) (hroom : table.count ≠ table.capacity)
    (fd : Int) : (ioWaitTableClaim table fd).2.isSome = true := by
  unfold ioWaitTableClaim
  split
  · rfl
  · next hfind =>
    -- without a free slot every entry is counted
    rw [List.findIdx?_eq_none_iff] at hfind
    refine absurd ?_ hroom
    rw [h.counted, IoWaitTable.capacity, List.countP_eq_length]
    intro e he
    simpa using hfind e he

/-- **A new entry.** With room in the table a new descriptor gets a fresh entry. -/
theorem ioWaitTableClaim_valid {table' : IoWaitTable} {r : Option Nat} (h : table.Valid)
    (hroom : table.count ≠ table.capacity) (hfresh : table.lookup fd = none)
    (heq : ioWaitTableClaim table fd = (table', r)) :
    ∃ i, r = some i ∧ Inserted table fd table' i (freshIoWaitEntry fd) := by
  have hsome := ioWaitTableClaim_isSome h hroom fd
  rw [heq] at hsome
  unfold ioWaitTableClaim at heq
  split at heq
  · next i hfind =>
    obtain ⟨rfl, rfl⟩ := Prod.mk.inj heq
    obtain ⟨hlt, hp, _⟩ := List.findIdx?_eq_some_iff_getElem.mp hfind
    have hget := List.getElem?_eq_getElem hlt
    have hfree : table.entries[i].inUse = false := by simpa using hp
    obtain ⟨hvalid, hlook⟩ := h.claim (freshIoWaitEntry fd) hfresh hget hfree rfl rfl
    refine ⟨i, rfl, hvalid, ?_, rfl, rfl, .inr ⟨hfresh, rfl⟩, hlook⟩
    exact List.getElem?_set_self hlt
  · obtain ⟨rfl, rfl⟩ := Prod.mk.inj heq
    exact absurd hsome (by simp)

/-- **`get_or_insert`** fails only when the table is full and cannot grow, and then it
leaves the table as it was. -/
theorem ioWaitTableGetOrInsert_valid {allocOk : Bool} {table' : IoWaitTable} {r : Option Nat}
    (h : table.Valid) (heq : ioWaitTableGetOrInsert allocOk table fd = (table', r)) :
    (r = none ∧ allocOk = false ∧ table.count = table.capacity ∧ table' = table) ∨
      ∃ i e, r = some i ∧ Inserted table fd table' i e := by
  unfold ioWaitTableGetOrInsert at heq
  split at heq
  · next i hfind =>
    obtain ⟨rfl, rfl⟩ := Prod.mk.inj heq
    obtain ⟨e, hget, hused, hfd, hlook⟩ := ioWaitTableFind_some h hfind
    refine .inr ⟨i, e, rfl, h, hget, hused, hfd, .inl hlook, ?_⟩
    intro g
    split
    · next hg => rw [hg]; exact hlook
    · rfl
  · next hfind =>
    have hfresh := ioWaitTableFind_none hfind
    split at heq
    · next hfull =>
      split at heq
      · next grown hgrow =>
        obtain ⟨hvalid, hsame⟩ := h.grow hgrow
        obtain ⟨i, hr, hins⟩ := ioWaitTableClaim_valid hvalid (ioWaitTableGrow_room hgrow)
          ((hsame fd).trans hfresh) heq
        refine .inr ⟨i, _, hr, hins.valid, hins.entry, hins.inUse, hins.fdEq,
          .inr ⟨hfresh, rfl⟩, ?_⟩
        intro g
        rw [hins.lookup g, hsame g]
      · next hgrow =>
        obtain ⟨rfl, rfl⟩ := Prod.mk.inj heq
        refine .inl ⟨rfl, ?_, hfull, rfl⟩
        unfold ioWaitTableGrow at hgrow
        dsimp only at hgrow
        split at hgrow
        · exact absurd hgrow (by simp)
        · next hno => simpa using hno
    · next hroom =>
      obtain ⟨i, hr, hins⟩ := ioWaitTableClaim_valid h hroom hfresh heq
      exact .inr ⟨i, _, hr, hins⟩

end Croutine
