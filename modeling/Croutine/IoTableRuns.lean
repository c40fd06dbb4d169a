import Croutine.IoTableSpec
import Croutine.Lib.Machine

/-!
# The I/O wait table as a map

The table under any calls: `io_wait_table_get_or_insert` with growth allocations that may
fail, `io_wait_table_remove_entry`, and stores of tasks into entries in use, which is what
callers do with the pointer they get.  In every state the entries in use stand for a map
from descriptors to tasks, `count` is their number, and a call changes the map for its own
descriptor only.
-/

namespace Croutine

inductive IoTableMove where
  | getOrInsert (allocOk : Bool) (fd : Int)
  | store (i : Nat) (readTask writeTask : Option TaskId)
  | removeEntry (i : Nat)

/-- The table from `io_wait_table_init` on, with any capacity. -/
def ioTableCalls : Machine IoWaitTable IoTableMove where
  init table := ∃ capacity, ioWaitTableInit capacity true = some table
  step table
    | .getOrInsert allocOk fd => .ok (ioWaitTableGetOrInsert allocOk table fd).1
    | .store i readTask writeTask =>
      match table.entries[i]? with
      | some e =>
        if e.inUse then
          .ok (table.setEntry i { e with readTask := readTask, writeTask := writeTask })
        else .error .disabled
      | none => .error .disabled
    | .removeEntry i => .ok (ioWaitTableRemoveEntry table i)

variable {table : IoWaitTable}

/-- Removing through a pointer to a free slot does nothing. -/
theorem ioWaitTableRemoveEntry_free {i : Nat}
    (h : ∀ e, table.entries[i]? = some e → e.inUse = false) :
    ioWaitTableRemoveEntry table i = table := by
  unfold ioWaitTableRemoveEntry
  split
  · next e he => rw [h e he, if_neg Bool.false_ne_true]
  · rfl

/-- What `remove_entry` does to the map. -/
theorem IoWaitTable.Valid.removeEntry (h : table.Valid) (i : Nat) :
    (ioWaitTableRemoveEntry table i).Valid ∧
      ∀ g, (ioWaitTableRemoveEntry table i).lookup g =
        if (table.entries[i]?.any fun e => e.inUse && e.fd == g) = true then none
        else table.lookup g := by
  by_cases hused : ∃ e, table.entries[i]? = some e ∧ e.inUse = true
  · obtain ⟨e, hget, hin⟩ := hused
    obtain ⟨hvalid, hlook⟩ := h.remove hget hin
    refine ⟨hvalid, fun g => ?_⟩
    rw [hlook, hget, Option.any_some, hin, Bool.true_and]
    exact if_congr (eq_comm.trans beq_iff_eq.symm) rfl rfl
  · have hfree : ∀ e, table.entries[i]? = some e → e.inUse = false := by
      intro e he
      by_contra habs
      exact hused ⟨e, he, by simpa using habs⟩
    rw [ioWaitTableRemoveEntry_free hfree]
    refine ⟨h, fun g => ?_⟩
    cases hget : table.entries[i]? with
    | none => rfl
    | some e => simp [hfree e hget]

theorem ioWaitTableInit_valid {capacity : Nat} {allocOk : Bool}
    (h : ioWaitTableInit capacity allocOk = some table) :
    table.Valid ∧ ∀ g, table.lookup g = none := by
  unfold ioWaitTableInit at h
  split at h
  · cases h
    have hfree : ∀ e ∈ List.replicate capacity ioWaitEntryReset, e.inUse = false := by
      intro e he
      rw [List.eq_of_mem_replicate he]
      rfl
    refine ⟨⟨?_, ?_⟩, fun g => ?_⟩
    · refine List.pairwise_replicate.mpr (.inr fun habs => ?_)
      exact absurd habs Bool.false_ne_true
    · exact (List.countP_eq_zero.mpr fun e he => by rw [hfree e he]; exact Bool.false_ne_true).symm
    · refine Slots.lookup_eq_none_iff.mpr fun e he hused => ?_
      rw [hfree e he] at hused
      exact absurd hused Bool.false_ne_true
  · exact absurd h (by simp)

/-- **The table is well formed in every state.** -/
theorem IoWaitTable.Valid.reach (h : ioTableCalls.Reach table) : table.Valid := by
  refine Machine.ReachVia.invariant (I := IoWaitTable.Valid) ?_ ?_ h
  · rintro x ⟨capacity, hinit⟩
    exact (ioWaitTableInit_valid hinit).1
  · intro x a x' _ hx _ hs
    cases a with
    | getOrInsert allocOk fd =>
        obtain ⟨r, hr⟩ : ∃ r, ioWaitTableGetOrInsert allocOk x fd = (x', r) :=
          ⟨_, Prod.ext (Except.ok.inj hs) rfl⟩
        rcases ioWaitTableGetOrInsert_valid hx hr with ⟨_, _, _, rfl⟩ | ⟨i, e, _, hins⟩
        · exact hx
        · exact hins.valid
    | store i readTask writeTask =>
        dsimp only [ioTableCalls] at hs
        split at hs
        · next e he =>
          split at hs
          · next hused =>
            cases hs
            have hnew : ({ e with readTask := readTask, writeTask := writeTask } :
                IoWaitEntry).inUse = true := hused
            exact (hx.store he hused hnew rfl).1
          · exact absurd hs (by simp)
        · exact absurd hs (by simp)
    | removeEntry i =>
        cases hs
        exact (hx.removeEntry i).1

/-- Growing moves the entries in use, in order, and adds none. -/
theorem ioWaitTableGrow_used {allocOk : Bool} {grown : IoWaitTable}
    (h : ioWaitTableGrow allocOk table = some grown) : grown.used = table.used := by
  unfold ioWaitTableGrow at h
  dsimp only at h
  split at h
  · cases h
    have hfree : ∀ n, (List.replicate n ioWaitEntryReset).filter (·.inUse) = [] := by
      intro n
      refine List.filter_eq_nil_iff.mpr fun e he => ?_
      rw [List.eq_of_mem_replicate he]
      exact Bool.false_ne_true
    unfold IoWaitTable.used
    rw [List.filter_append, hfree, List.append_nil, List.filter_filter]
    simp
  · exact absurd h (by simp)

/-- **The wait table is a map.**  After any calls there is at most one entry in use per
descriptor and `count` is their number.  `get_or_insert` returns the entry the descriptor
had, as it was, or a fresh one without tasks; it returns `NULL` only if the table was full
and its growth was refused.  The entries of other descriptors are as before, whether the
table was grown or not, and so they are after a removal.  Growing keeps exactly the entries
in use, and after it, as after any successful check of the count, the search for a free slot
finds one. -/
theorem io_wait_table_is_map (h : ioTableCalls.Reach table) :
    table.used.Pairwise (fun a b => a.fd ≠ b.fd) ∧
    table.count = table.used.length ∧
    (∀ allocOk fd table' r, ioWaitTableGetOrInsert allocOk table fd = (table', r) →
      (∀ g, g ≠ fd → table'.lookup g = table.lookup g) ∧
      match r with
      | none => allocOk = false ∧ table.count = table.capacity ∧ table' = table
      | some i => ∃ e, table'.entries[i]? = some e ∧ table'.lookup fd = some e ∧
          (table.lookup fd = some e ∨
            (table.lookup fd = none ∧ e.readTask = none ∧ e.writeTask = none))) ∧
    (∀ i g, (ioWaitTableRemoveEntry table i).lookup g =
      if (table.entries[i]?.any fun e => e.inUse && e.fd == g) = true then none
      else table.lookup g) ∧
    (∀ allocOk grown, ioWaitTableGrow allocOk table = some grown →
      grown.used = table.used ∧ ∀ fd, (ioWaitTableClaim grown fd).2.isSome = true) ∧
    (table.count ≠ table.capacity →
      ∀ fd, (ioWaitTableClaim table fd).2.isSome = true) := by
  have hvalid := IoWaitTable.Valid.reach h
  refine ⟨?_, ?_, ?_, fun i => (hvalid.removeEntry i).2, ?_, ioWaitTableClaim_isSome hvalid⟩
  · unfold IoWaitTable.used
    rw [List.pairwise_filter]
    exact hvalid.keyed.imp fun hne ha hb => hne ha hb
  · rw [hvalid.counted, List.countP_eq_length_filter]
    rfl
  · intro allocOk fd table' r hget
    rcases ioWaitTableGetOrInsert_valid hvalid hget with ⟨rfl, hno, hfull, rfl⟩ | ⟨i, e, rfl, hins⟩
    · exact ⟨fun _ _ => rfl, hno, hfull, rfl⟩
    · refine ⟨fun g hg => by rw [hins.lookup, if_neg hg], e, hins.entry, ?_, ?_⟩
      · rw [hins.lookup, if_pos rfl]
      · rcases hins.origin with hold | ⟨hnone, rfl⟩
        · exact .inl hold
        · exact .inr ⟨hnone, rfl, rfl⟩
  · intro allocOk grown hgrow
    exact ⟨ioWaitTableGrow_used hgrow,
      ioWaitTableClaim_isSome (hvalid.grow hgrow).1 (ioWaitTableGrow_room hgrow)⟩

/-- Descriptor 7 gets an entry, its task is stored, and two more descriptors make the table
grow. -/
def threeEntries : List IoTableMove :=
  [.getOrInsert true 7, .store 0 (some 4) none, .getOrInsert true 8, .getOrInsert true 9]

theorem io_wait_table_is_map_grown :
    ∃ table, ioTableCalls.Reach table ∧ table.capacity = 4 ∧ table.count = table.used.length ∧
      (table.lookup 7).map (·.readTask) = some (some 4) ∧
      ((ioWaitTableRemoveEntry table 1).lookup 7).map (·.readTask) = some (some 4) := by
  have hreach : ioTableCalls.Reach
      (ioTableCalls.after ⟨[], 0⟩ threeEntries) :=
    Machine.reach_after ⟨0, rfl⟩ (by decide)
  obtain ⟨_, hcount, _, hremove, _⟩ := io_wait_table_is_map hreach
  refine ⟨_, hreach, by decide, hcount, by decide, ?_⟩
  rw [hremove, if_neg (by decide)]
  decide

end Croutine
