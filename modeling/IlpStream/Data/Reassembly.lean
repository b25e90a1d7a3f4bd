import IlpStream.Data.SorterInvariant

/-!
# Reassembling a byte string from its chunks

The use the `OffsetSorter` of `src/test/index.test.ts:277–343` is made for: the chunks of a
byte string `S` are pushed in any order, interleaved with reads, and what `read` returns is
`S` from its start. The results, from the representation invariant:

* for every run that pushes only slices of `S` (duplicated or overlapping ones included),
  the buffers read so far concatenate to `S.take readOffset`;
* once every chunk of a split of `S` has been pushed, reading until `read()` returns
  `undefined` hands out every chunk once and ends at `readOffset = S.length`;
* `isEnd()` then holds exactly when the last `setEndOffset` call was given `S.length`.
-/

namespace IlpStream.Data

/-- `entry` is the slice of `S` at its offset: its data is `S.slice(offset, offset + length)`. -/
def IsSlice (S : Bytes) (entry : OffsetDataEntry) : Prop :=
  entry.data = (S.drop entry.offset).take entry.data.length

instance (S : Bytes) : DecidablePred (IsSlice S) := fun _ => inferInstanceAs (Decidable (_ = _))

/-- The byte ranges of two entries do not meet. -/
def RangesDisjoint (a b : OffsetDataEntry) : Prop :=
  a.offset + a.data.length ≤ b.offset ∨ b.offset + b.data.length ≤ a.offset

instance : DecidableRel RangesDisjoint := fun _ _ => inferInstanceAs (Decidable (_ ∨ _))

theorem RangesDisjoint.symm {a b : OffsetDataEntry} (h : RangesDisjoint a b) :
    RangesDisjoint b a := Or.symm h

/-- A split of `S`: non-empty slices of `S`, pairwise disjoint, covering `[0, S.length)`. -/
structure Split (S : Bytes) where
  chunks : List OffsetDataEntry
  slice : ∀ chunk ∈ chunks, IsSlice S chunk
  nonempty : ∀ chunk ∈ chunks, chunk.data ≠ []
  disjoint : chunks.Pairwise RangesDisjoint
  covers : ∀ i < S.length, ∃ chunk ∈ chunks, chunk.offset ≤ i ∧ i < chunk.offset + chunk.data.length

/-- A non-empty slice lies inside `S`. -/
theorem IsSlice.end_le {S : Bytes} {entry : OffsetDataEntry} (h : IsSlice S entry)
    (hne : entry.data ≠ []) : entry.offset + entry.data.length ≤ S.length := by
  have hlen := congrArg List.length h
  have hpos := List.length_pos.mpr hne
  simp only [List.length_take, List.length_drop] at hlen
  omega

/-- Slices read one after another from `start` spell `S` from `start`. -/
theorem flatten_of_contiguous {S : Bytes} {start : Nat} {entries : List OffsetDataEntry}
    (hc : Contiguous start entries) (hs : ∀ entry ∈ entries, IsSlice S entry)
    (hstart : start ≤ S.length) :
    (entries.map (·.data)).flatten = (S.drop start).take (totalLength entries) ∧
      start + totalLength entries ≤ S.length := by
  induction entries generalizing start with
  | nil => simpa using hstart
  | cons entry rest ih =>
    obtain ⟨hoff, hrest⟩ := hc
    have hslice := hs entry (List.mem_cons_self _ _)
    have hend : start + entry.data.length ≤ S.length := by
      by_cases hne : entry.data = []
      · simpa [hne] using hstart
      · simpa [hoff] using hslice.end_le hne
    obtain ⟨ih₁, ih₂⟩ := ih hrest (fun e he => hs e (List.mem_cons_of_mem _ he)) hend
    refine ⟨?_, by simp; omega⟩
    rw [List.map_cons, List.flatten_cons, ih₁, totalLength_cons, List.take_add, List.drop_drop]
    congr 1
    rw [← hoff]
    exact hslice

/-- Over a history that pushed only slices of `S`, what `read` returned is `S` up to
`readOffset`. -/
theorem History.Invariant.output_flatten {S : Bytes} {history : History} (hi : history.Invariant)
    (hs : ∀ entry ∈ history.pushed, IsSlice S entry) :
    history.output.flatten = S.take history.sorter.readOffset ∧
      history.sorter.readOffset ≤ S.length := by
  have hret : ∀ entry ∈ history.returned, IsSlice S entry :=
    fun e he => hs e (hi.perm.subset (List.mem_append_left _ he))
  obtain ⟨h₁, h₂⟩ := flatten_of_contiguous hi.contiguous hret (Nat.zero_le _)
  rw [← hi.readOffset_eq, zero_add] at h₂
  exact ⟨by simpa [History.output, hi.readOffset_eq] using h₁, h₂⟩

/-- In every run that pushes only slices of `S` (duplicated, overlapping or not), the
buffers `read` has returned concatenate to the first `readOffset` bytes of `S`. -/
theorem output_flatten_of_slices (S : Bytes) (ops : List Op)
    (hs : ∀ entry ∈ ops.filterMap Op.entry?, IsSlice S entry) :
    (History.init.run ops).output.flatten = S.take (History.init.run ops).sorter.readOffset :=
  ((History.invariant_run_init ops).output_flatten
    (by simpa [History.pushed_run, History.init] using hs)).1

theorem output_flatten_of_slices_duplicate :
    (∀ entry ∈ [Op.push [1] 0, .push [1] 0, .read, .read].filterMap Op.entry?,
      IsSlice [1, 2] entry) ∧
    (History.init.run [.push [1] 0, .push [1] 0, .read, .read]).output.flatten =
      [1, 2].take (History.init.run [.push [1] 0, .push [1] 0, .read, .read]).sorter.readOffset :=
  ⟨by decide, output_flatten_of_slices _ _ (by decide)⟩

namespace History

theorem pushed_step_read (history : History) : (history.step .read).pushed = history.pushed := by
  simp only [step]; split <;> rfl

theorem pushed_drain (history : History) : history.drain.pushed = history.pushed :=
  drain_induction (motive := fun h => h.pushed = history.pushed)
    (fun h hh => (pushed_step_read h).trans hh) history rfl

theorem Invariant.drain {history : History} (hi : history.Invariant) : history.drain.Invariant :=
  drain_induction (fun _ h => h.read) history hi

end History

section
variable {S : Bytes} (split : Split S) {history : History} (hi : history.Invariant)
  (hperm : history.pushed.Perm split.chunks)
include hi hperm

private theorem pairwise_disjoint_of_perm :
    (history.returned ++ history.sorter.head).Pairwise RangesDisjoint :=
  ((hi.perm.trans hperm).pairwise_iff RangesDisjoint.symm).mpr split.disjoint

/-- With every chunk pushed, `read` returns `undefined` only once the list is empty. -/
theorem head_eq_nil_of_read_none (hnone : history.sorter.read.1 = none) :
    history.sorter.head = [] := by
  rcases hh : history.sorter.head with _ | ⟨x, rest⟩
  · rfl
  exfalso
  have hall := hi.perm.trans hperm
  have hx : x.offset ≠ history.sorter.readOffset := OffsetSorter.read_none_iff.mp hnone x rest hh
  have hxmem : x ∈ history.sorter.head := hh ▸ List.mem_cons_self _ _
  have hxchunk : x ∈ split.chunks := hall.subset (List.mem_append_right _ hxmem)
  have hxpos := List.length_pos.mpr (split.nonempty x hxchunk)
  rcases Nat.lt_or_gt_of_ne hx with hlt | hgt
  · -- `x` starts inside the range already read, which the returned entries tile
    obtain ⟨q, hq, hqlo, hqhi⟩ := hi.contiguous.covers (Nat.zero_le x.offset)
      (by rw [zero_add, ← hi.readOffset_eq]; exact hlt)
    have := (List.pairwise_append.mp (pairwise_disjoint_of_perm split hi hperm)).2.2 q hq x hxmem
    unfold RangesDisjoint at this
    omega
  · -- the chunk covering `readOffset` is neither returned nor listed before `x`
    have hend := (split.slice x hxchunk).end_le (split.nonempty x hxchunk)
    obtain ⟨p, hp, hplo, hphi⟩ := split.covers history.sorter.readOffset (by omega)
    rcases List.mem_append.mp (hall.symm.subset hp) with hp | hp
    · have := hi.end_le_readOffset hp
      omega
    · have hs := hi.sorted
      rw [OffsetSorted, hh, List.sorted_cons] at hs
      rw [hh] at hp
      rcases List.mem_cons.mp hp with rfl | hp
      · omega
      · have := hs.1 p hp; omega

/-- With the list empty, every chunk has been read and `readOffset` is past every one. -/
theorem readOffset_eq_length_of_head_nil (hnil : history.sorter.head = [])
    (hle : history.sorter.readOffset ≤ S.length) : history.sorter.readOffset = S.length := by
  refine Nat.le_antisymm hle (Nat.not_lt.mp fun hlt => ?_)
  obtain ⟨p, hp, hplo, hphi⟩ := split.covers history.sorter.readOffset hlt
  have hret : p ∈ history.returned := by
    simpa [hnil] using (hi.perm.trans hperm).symm.subset hp
  have := hi.end_le_readOffset hret
  omega

end

/-- With every chunk of a split pushed, draining empties the list and ends at `S.length`. -/
theorem drain_run_of_split {S : Bytes} (split : Split S) {ops : List Op}
    (hpushes : (ops.filterMap Op.entry?).Perm split.chunks) :
    (History.init.run ops).drain.sorter.head = [] ∧
      (History.init.run ops).drain.sorter.readOffset = S.length := by
  have hi := (History.invariant_run_init ops).drain
  have hperm : (History.init.run ops).drain.pushed.Perm split.chunks := by
    simpa [History.pushed_drain, History.pushed_run, History.init] using hpushes
  have hnil := head_eq_nil_of_read_none split hi hperm (History.read_drain _)
  obtain ⟨-, hle⟩ := hi.output_flatten fun e he => split.slice e (hperm.subset he)
  exact ⟨hnil, readOffset_eq_length_of_head_nil split hi hperm hnil hle⟩

/-- Offset reassembly: with the chunks of a split of `S` pushed in any order and
interleaved with any reads, what has been read is at every point a prefix of `S`; and after
reading until `read()` returns `undefined`, the buffers read spell `S`, each chunk was
returned once, `readOffset = S.length`, and `isEnd()` holds iff the end offset is
`S.length`. -/
theorem offsetSorter_reassembles (S : Bytes) (split : Split S) (ops : List Op)
    (hpushes : (ops.filterMap Op.entry?).Perm split.chunks) :
    (∀ n, (History.init.run (ops.take n)).output.flatten <+: S) ∧
    ((History.init.run ops).drain.output.flatten = S ∧
      (History.init.run ops).drain.returned.Perm split.chunks ∧
      (History.init.run ops).drain.sorter.readOffset = S.length ∧
      ((History.init.run ops).drain.sorter.isEnd = true ↔
        (History.init.run ops).drain.sorter.endOffset = S.length)) := by
  have hslices : ∀ entry ∈ ops.filterMap Op.entry?, IsSlice S entry :=
    fun e he => split.slice e (hpushes.subset he)
  refine ⟨fun n => ?_, ?_⟩
  · rw [output_flatten_of_slices S _ fun e he =>
      hslices e (((List.take_sublist n ops).filterMap _).subset he)]
    exact List.take_prefix _ _
  · have hi := (History.invariant_run_init ops).drain
    have hperm : (History.init.run ops).drain.pushed.Perm split.chunks := by
      simpa [History.pushed_drain, History.pushed_run, History.init] using hpushes
    obtain ⟨hnil, hro⟩ := drain_run_of_split split hpushes
    obtain ⟨hflat, -⟩ := hi.output_flatten fun e he => split.slice e (hperm.subset he)
    refine ⟨by rw [hflat, hro, List.take_length], ?_, hro, ?_⟩
    · simpa [hnil] using hi.perm.trans hperm
    · simp [OffsetSorter.isEnd, hro, eq_comm]

/-- `[1, 2, 3]` split as `[1]` at 0 and `[2, 3]` at 1. -/
def splitOneTwoThree : Split [1, 2, 3] where
  chunks := [⟨[1], 0⟩, ⟨[2, 3], 1⟩]
  slice := by decide
  nonempty := by decide
  disjoint := by decide
  covers := by decide

theorem offsetSorter_reassembles_one_two_three :
    ([Op.push [2, 3] 1, .read, .push [1] 0, .setEndOffset 3].filterMap Op.entry?).Perm
      splitOneTwoThree.chunks ∧
    ((∀ n, (History.init.run
        ([Op.push [2, 3] 1, .read, .push [1] 0, .setEndOffset 3].take n)).output.flatten <+:
          [1, 2, 3]) ∧
      ((History.init.run [.push [2, 3] 1, .read, .push [1] 0, .setEndOffset 3]).drain.output.flatten =
          [1, 2, 3] ∧
        (History.init.run [.push [2, 3] 1, .read, .push [1] 0, .setEndOffset 3]).drain.returned.Perm
          splitOneTwoThree.chunks ∧
        (History.init.run [.push [2, 3] 1, .read, .push [1] 0, .setEndOffset 3]).drain.sorter.readOffset =
          [1, 2, 3].length ∧
        ((History.init.run [.push [2, 3] 1, .read, .push [1] 0, .setEndOffset 3]).drain.sorter.isEnd =
            true ↔
          (History.init.run [.push [2, 3] 1, .read, .push [1] 0, .setEndOffset 3]).drain.sorter.endOffset =
            [1, 2, 3].length))) :=
  ⟨by decide, offsetSorter_reassembles _ splitOneTwoThree _ (by decide)⟩

/-- The end is reached as the calls say: once every chunk of a split of `S` has been pushed and
the sorter drained, `isEnd()` holds exactly when the last `setEndOffset` call was given
`S.length`. -/
theorem isEnd_drain_iff_last_setEndOffset {S : Bytes} (split : Split S) {ops : List Op}
    (hpushes : (ops.filterMap Op.entry?).Perm split.chunks) :
    (History.init.run ops).drain.sorter.isEnd = true ↔
      (ops.filterMap Op.endOffset?).getLast? = some (S.length : Int) := by
  rw [OffsetSorter.isEnd, decide_eq_true_iff, (drain_run_of_split split hpushes).2,
    History.endOffset_drain, History.endOffset_run]
  cases (ops.filterMap Op.endOffset?).getLast? with
  | none => simp [History.init, OffsetSorter.new]
  | some offset => simp [eq_comm]

theorem isEnd_drain_iff_last_setEndOffset_one_two_three :
    ([Op.push [2, 3] 1, .read, .push [1] 0, .setEndOffset 3].filterMap Op.entry?).Perm
      splitOneTwoThree.chunks ∧
    ((History.init.run [.push [2, 3] 1, .read, .push [1] 0, .setEndOffset 3]).drain.sorter.isEnd =
        true ↔
      ([Op.push [2, 3] 1, .read, .push [1] 0, .setEndOffset 3].filterMap Op.endOffset?).getLast? =
        some ([1, 2, 3].length : Int)) :=
  ⟨by decide, isEnd_drain_iff_last_setEndOffset splitOneTwoThree (by decide)⟩

end IlpStream.Data
