import IlpStream.Data.OffsetSorter

/-!
# The `OffsetSorter` representation invariant

What every run of calls from `new OffsetSorter()` keeps, `src/test/index.test.ts:277–343`:
the list from `head` is ordered by offset, with entries of equal offset in push order; it
holds the pushed entries that `read` has not handed out; the handed-out entries tile
`[0, readOffset)` one after another; and `maxOffset` is the furthest end pushed. Each call
keeps the invariant (`Invariant.step`), so every run does (`Invariant.run`).
-/

namespace IlpStream.Data

/-- Offsets along the list do not decrease. -/
def OffsetSorted (entries : List OffsetDataEntry) : Prop :=
  entries.Sorted fun a b => a.offset ≤ b.offset

/-- The entries at offset `k`, in list order. -/
def atOffset (k : Nat) (entries : List OffsetDataEntry) : List OffsetDataEntry :=
  entries.filter fun entry => entry.offset = k

/-- The total data length of a list of entries. -/
def totalLength (entries : List OffsetDataEntry) : Nat :=
  (entries.map fun entry => entry.data.length).sum

/-- `entries` tile `[start, start + totalLength entries)` in list order: each entry starts
where the one before it ends. -/
def Contiguous : Nat → List OffsetDataEntry → Prop
  | _, [] => True
  | start, entry :: rest => entry.offset = start ∧ Contiguous (start + entry.data.length) rest

@[simp] theorem atOffset_append (k : Nat) (l l' : List OffsetDataEntry) :
    atOffset k (l ++ l') = atOffset k l ++ atOffset k l' := List.filter_append _ _

@[simp] theorem totalLength_nil : totalLength [] = 0 := rfl

@[simp] theorem totalLength_cons (entry : OffsetDataEntry) (rest : List OffsetDataEntry) :
    totalLength (entry :: rest) = entry.data.length + totalLength rest := by
  simp [totalLength]

@[simp] theorem totalLength_append (l l' : List OffsetDataEntry) :
    totalLength (l ++ l') = totalLength l + totalLength l' := by
  simp [totalLength]

/-! ### Contiguous runs of entries -/

theorem contiguous_append_singleton {start : Nat} {entries : List OffsetDataEntry}
    {entry : OffsetDataEntry} :
    Contiguous start (entries ++ [entry]) ↔
      Contiguous start entries ∧ entry.offset = start + totalLength entries := by
  induction entries generalizing start with
  | nil => simp [Contiguous]
  | cons head rest ih => simp [Contiguous, ih, and_assoc, Nat.add_assoc]

/-- Every entry of a contiguous run ends by the end of the run. -/
theorem Contiguous.end_le {start : Nat} {entries : List OffsetDataEntry}
    (h : Contiguous start entries) {entry : OffsetDataEntry} (he : entry ∈ entries) :
    entry.offset + entry.data.length ≤ start + totalLength entries := by
  induction entries generalizing start with
  | nil => cases he
  | cons head rest ih =>
    obtain ⟨hoff, hrest⟩ := h
    rcases List.mem_cons.mp he with rfl | he
    · simp; omega
    · have := ih hrest he; simp; omega

/-- Every position of the run's range lies in one of its entries. -/
theorem Contiguous.covers {start : Nat} {entries : List OffsetDataEntry}
    (h : Contiguous start entries) {i : Nat} (hlo : start ≤ i)
    (hhi : i < start + totalLength entries) :
    ∃ entry ∈ entries, entry.offset ≤ i ∧ i < entry.offset + entry.data.length := by
  induction entries generalizing start with
  | nil => simp at hhi; omega
  | cons head rest ih =>
    obtain ⟨hoff, hrest⟩ := h
    by_cases hi : i < start + head.data.length
    · exact ⟨head, List.mem_cons_self _ _, by omega, by omega⟩
    · obtain ⟨entry, he, hlt⟩ := ih hrest (by omega) (by simp at hhi; omega)
      exact ⟨entry, List.mem_cons_of_mem _ he, hlt⟩

/-! ### Stable insertion -/

namespace OffsetSorter

theorem mem_insertByOffset {a entry : OffsetDataEntry} {entries : List OffsetDataEntry} :
    a ∈ insertByOffset entry entries ↔ a = entry ∨ a ∈ entries := by
  induction entries with
  | nil => simp [insertByOffset]
  | cons next rest ih =>
    unfold insertByOffset
    split <;> simp [ih, or_left_comm]

/-- Insertion keeps the list ordered. -/
theorem sorted_insertByOffset (entry : OffsetDataEntry) {entries : List OffsetDataEntry}
    (h : OffsetSorted entries) : OffsetSorted (insertByOffset entry entries) := by
  induction entries with
  | nil => simp [OffsetSorted, insertByOffset]
  | cons next rest ih =>
    rw [OffsetSorted, List.sorted_cons] at h
    unfold insertByOffset
    split
    · next hlt =>
      refine List.sorted_cons.mpr ⟨fun b hb => ?_, List.sorted_cons.mpr h⟩
      rcases List.mem_cons.mp hb with rfl | hb
      · omega
      · have := h.1 b hb; omega
    · next hle =>
      refine List.sorted_cons.mpr ⟨fun b hb => ?_, ih h.2⟩
      rcases mem_insertByOffset.mp hb with rfl | hb
      · omega
      · exact h.1 b hb

/-- Into an ordered list, the entry goes after every entry of its own offset. -/
theorem atOffset_insertByOffset (k : Nat) (entry : OffsetDataEntry)
    {entries : List OffsetDataEntry} (h : OffsetSorted entries) :
    atOffset k (insertByOffset entry entries) = atOffset k entries ++ atOffset k [entry] := by
  induction entries with
  | nil => rfl
  | cons next rest ih =>
    rw [OffsetSorted, List.sorted_cons] at h
    unfold insertByOffset
    split
    · next hlt =>
      by_cases hk : entry.offset = k
      · have hnone : atOffset k (next :: rest) = [] := by
          refine List.filter_eq_nil_iff.mpr fun b hb => ?_
          rcases List.mem_cons.mp hb with rfl | hb
          · simp; omega
          · have := h.1 b hb; simp; omega
        simp only [atOffset] at hnone
        simp [atOffset, List.filter_cons, hk, hnone]
      · simp [atOffset, List.filter_cons, hk]
    · simp only [atOffset, List.filter_cons] at ih ⊢
      split <;> simp [ih h.2]

end OffsetSorter

/-- `byteLength()` is the total data length of the entries in the list. -/
theorem OffsetSorter.byteLength_eq (sorter : OffsetSorter) :
    sorter.byteLength = totalLength sorter.head := by
  suffices ∀ (length : Nat) (entries : List OffsetDataEntry),
      entries.foldl (fun length entry => length + entry.data.length) length =
        length + totalLength entries from by simpa using this 0 sorter.head
  intro length entries
  induction entries generalizing length with
  | nil => rfl
  | cons entry rest ih => simp [ih, Nat.add_assoc]

/-! ### The invariant -/

namespace History

/-- The representation invariant of a history of calls from `new OffsetSorter()`. -/
structure Invariant (history : History) : Prop where
  sorted : OffsetSorted history.sorter.head
  /-- At each offset, the entries handed out and then those still listed are the entries
  pushed there, in push order. -/
  pushOrder : ∀ k, atOffset k history.returned ++ atOffset k history.sorter.head =
    atOffset k history.pushed
  contiguous : Contiguous 0 history.returned
  readOffset_eq : history.sorter.readOffset = totalLength history.returned
  maxOffset_eq : history.sorter.maxOffset =
    (history.pushed.map fun entry => entry.offset + entry.data.length).foldl max 0

theorem invariant_init : init.Invariant where
  sorted := List.sorted_nil
  pushOrder _ := rfl
  contiguous := trivial
  readOffset_eq := rfl
  maxOffset_eq := rfl

section
variable {history : History} (hi : history.Invariant)
include hi

theorem Invariant.push (data : Bytes) (offset : Nat) : (history.step (.push data offset)).Invariant where
  sorted := by simpa [step] using OffsetSorter.sorted_insertByOffset ⟨data, offset⟩ hi.sorted
  pushOrder k := by
    simp only [step, OffsetSorter.push_head, OffsetSorter.atOffset_insertByOffset k _ hi.sorted,
      atOffset_append, ← List.append_assoc, hi.pushOrder k]
  contiguous := hi.contiguous
  readOffset_eq := by simpa [step] using hi.readOffset_eq
  maxOffset_eq := by simp [step, hi.maxOffset_eq, List.foldl_append, max_comm]

theorem Invariant.read : (history.step .read).Invariant := by
  rcases hr : history.sorter.read with ⟨_ | data, sorter⟩
  · rwa [step_read_of_none (by rw [hr])]
  · obtain ⟨rest, hh, rfl⟩ := OffsetSorter.read_eq_some.mp hr
    have hsorted := hi.sorted
    rw [OffsetSorted, hh] at hsorted
    rw [step_read_of_some hr]
    exact
      { sorted := hsorted.of_cons
        pushOrder := fun k => by
          rw [← hi.pushOrder k, hh, atOffset_append, List.append_assoc]
          exact congrArg _ (atOffset_append k [_] rest).symm
        contiguous := contiguous_append_singleton.mpr
          ⟨hi.contiguous, by simpa using hi.readOffset_eq⟩
        readOffset_eq := by simp [hi.readOffset_eq]
        maxOffset_eq := hi.maxOffset_eq }

theorem Invariant.step (op : Op) : (history.step op).Invariant := by
  cases op with
  | push data offset => exact hi.push data offset
  | read => exact hi.read
  | setEndOffset offset =>
    exact ⟨hi.sorted, hi.pushOrder, hi.contiguous, hi.readOffset_eq, hi.maxOffset_eq⟩

end

theorem Invariant.run {history : History} (hi : history.Invariant) (ops : List Op) :
    (history.run ops).Invariant := by
  induction ops generalizing history with
  | nil => exact hi
  | cons op ops ih => exact ih (hi.step op)

/-- Every history from a fresh sorter keeps the invariant. -/
theorem invariant_run_init (ops : List Op) : (init.run ops).Invariant :=
  invariant_init.run ops

/-- Nothing is lost or duplicated: the entries handed out and those still listed are the
pushed entries, up to order. -/
theorem Invariant.perm {history : History} (hi : history.Invariant) :
    (history.returned ++ history.sorter.head).Perm history.pushed := by
  refine List.perm_iff_count.mpr fun a => ?_
  have := congrArg (List.count a) (hi.pushOrder a.offset)
  simpa [atOffset, List.count_filter] using this

/-- Every returned entry ends at or before `readOffset`. -/
theorem Invariant.end_le_readOffset {history : History} (hi : history.Invariant)
    {entry : OffsetDataEntry} (he : entry ∈ history.returned) :
    entry.offset + entry.data.length ≤ history.sorter.readOffset := by
  simpa [hi.readOffset_eq] using hi.contiguous.end_le he

end History

/-- The representation invariant of `OffsetSorter` over every run of `push`, `read` and
`setEndOffset` calls from a fresh sorter: the list is ordered by offset, with the entries of
each offset in push order; with the entries `read` returned it is the pushed entries,
none lost or duplicated; `readOffset` is the length read; `maxOffset` is the furthest
end pushed; `byteLength()` is the length still listed. -/
theorem offsetSorter_representation_invariant (ops : List Op) :
    let history := History.init.run ops
    OffsetSorted history.sorter.head ∧
    (∀ k, atOffset k history.returned ++ atOffset k history.sorter.head =
      atOffset k (ops.filterMap Op.entry?)) ∧
    (history.returned ++ history.sorter.head).Perm (ops.filterMap Op.entry?) ∧
    history.sorter.readOffset = (history.output.map List.length).sum ∧
    history.sorter.maxOffset =
      ((ops.filterMap Op.entry?).map fun entry => entry.offset + entry.data.length).foldl max 0 ∧
    history.sorter.byteLength = totalLength history.sorter.head := by
  have hi := History.invariant_run_init ops
  have hp : (History.init.run ops).pushed = ops.filterMap Op.entry? := by
    simp [History.pushed_run, History.init]
  refine ⟨hi.sorted, hp ▸ hi.pushOrder, hp ▸ hi.perm, ?_, hp ▸ hi.maxOffset_eq,
    OffsetSorter.byteLength_eq _⟩
  simp [hi.readOffset_eq, History.output, totalLength, Function.comp_def]

end IlpStream.Data
