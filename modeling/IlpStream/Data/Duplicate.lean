import IlpStream.Data.Reassembly

/-!
# Pushing a chunk twice

`push`, `src/test/index.test.ts:296–321`, links every entry in, a second copy of a chunk
included, and `read`, `index.test.ts:323–331`, never skips an entry. A run with one push
repeated is compared with the run without it through the part of the state that later
reads depend on (`View`). The relation `Shadow` between the two views holds after the
repeated push; every call keeps it, and so does reading until `undefined`. Under it the
bytes read with the repetition are a prefix of those read without it, and the prefix can
be strict: the second copy of a chunk already read sits at the front of the list below
`readOffset`, and from then on `read` returns `undefined`.
-/

namespace IlpStream.Data

namespace OffsetSorter

theorem insertByOffset_cons (entry next : OffsetDataEntry) (rest : List OffsetDataEntry) :
    insertByOffset entry (next :: rest) =
      if entry.offset < next.offset then entry :: next :: rest
      else next :: insertByOffset entry rest := rfl

/-- Inserting into `l₁ ++ l` lands in `l₁` when `l₁` holds a greater offset. -/
theorem insertByOffset_append (entry : OffsetDataEntry) (l₁ l : List OffsetDataEntry) :
    insertByOffset entry (l₁ ++ l) =
      if l₁.any fun x => entry.offset < x.offset then insertByOffset entry l₁ ++ l
      else l₁ ++ insertByOffset entry l := by
  induction l₁ with
  | nil => simp
  | cons x l₁ ih =>
    rw [List.cons_append, insertByOffset_cons, insertByOffset_cons, List.any_cons]
    by_cases hx : entry.offset < x.offset
    · simp [hx]
    · simp only [hx, ih, decide_False, Bool.false_or, if_false]
      split <;> rfl

/-- Before entries all of greater offset, the entry goes first. -/
theorem insertByOffset_of_lt {entry : OffsetDataEntry} {l : List OffsetDataEntry}
    (h : ∀ x ∈ l, entry.offset < x.offset) : insertByOffset entry l = entry :: l := by
  cases l with
  | nil => rfl
  | cons x rest => simp [insertByOffset_cons, h x (List.mem_cons_self _ _)]

/-- Into an ordered list the entry goes before a tail of greater offsets only. -/
theorem insertByOffset_split (entry : OffsetDataEntry) {l : List OffsetDataEntry}
    (hl : OffsetSorted l) : ∃ l₁ l₂, l = l₁ ++ l₂ ∧
      insertByOffset entry l = l₁ ++ entry :: l₂ ∧ ∀ x ∈ l₂, entry.offset < x.offset := by
  induction l with
  | nil => exact ⟨[], [], rfl, rfl, by simp⟩
  | cons x rest ih =>
    rw [OffsetSorted, List.sorted_cons] at hl
    by_cases hx : entry.offset < x.offset
    · refine ⟨[], x :: rest, rfl, by simp [insertByOffset_cons, hx], fun y hy => ?_⟩
      rcases List.mem_cons.mp hy with rfl | hy
      · exact hx
      · have := hl.1 y hy; omega
    · obtain ⟨l₁, l₂, h₁, h₂, h₃⟩ := ih hl.2
      exact ⟨x :: l₁, l₂, by simp [h₁], by simp [insertByOffset_cons, hx, h₂], h₃⟩

end OffsetSorter

/-- The list, `readOffset` and the concatenated bytes read: what later reads depend on. -/
structure View where
  head : List OffsetDataEntry
  readOffset : Nat
  out : Bytes

namespace View

/-- `push` on the view. -/
def push (entry : OffsetDataEntry) (view : View) : View :=
  { view with head := OffsetSorter.insertByOffset entry view.head }

/-- `read` on the view. -/
def read (view : View) : View :=
  match view.head with
  | entry :: rest =>
    if view.readOffset = entry.offset then
      ⟨rest, entry.offset + entry.data.length, view.out ++ entry.data⟩
    else view
  | [] => view

/-- A call on the view. -/
def step (view : View) : Op → View
  | .push data offset => view.push ⟨data, offset⟩
  | .read => view.read
  | .setEndOffset _ => view

/-- A view whose first entry does not start at `readOffset` is not read. -/
theorem read_of_ne {entry : OffsetDataEntry} {rest : List OffsetDataEntry} {readOffset : Nat}
    {out : Bytes} (h : readOffset ≠ entry.offset) :
    (⟨entry :: rest, readOffset, out⟩ : View).read = ⟨entry :: rest, readOffset, out⟩ :=
  if_neg h

theorem out_prefix_read (view : View) : view.out <+: view.read.out := by
  unfold read
  split
  · split
    · exact List.prefix_append _ _
    · exact List.prefix_refl _
  · exact List.prefix_refl _

end View

/-- The view of a history. -/
def History.view (history : History) : View :=
  ⟨history.sorter.head, history.sorter.readOffset, history.output.flatten⟩

/-- The view follows the calls. -/
theorem History.view_step (history : History) (op : Op) :
    (history.step op).view = history.view.step op := by
  cases op with
  | push data offset => simp [view, View.step, View.push, step, output]
  | read =>
    rcases hr : history.sorter.read with ⟨_ | data, sorter⟩
    · have hn := OffsetSorter.read_none_iff.mp (by rw [hr])
      rw [step_read_of_none (by rw [hr])]
      simp only [View.step, View.read, view]
      split
      · next x rest hh => rw [if_neg (Ne.symm (hn x rest hh))]
      · rfl
    · obtain ⟨rest, hh, rfl⟩ := OffsetSorter.read_eq_some.mp hr
      rw [step_read_of_some hr]
      simp [view, View.step, View.read, hh, output]
  | setEndOffset => rfl

theorem History.head_length_step_read_lt {history : History} (h : history.sorter.read.1 ≠ none) :
    (history.step .read).sorter.head.length < history.sorter.head.length := by
  rcases hr : history.sorter.read with ⟨_ | data, sorter⟩
  · rw [hr] at h; exact absurd rfl h
  · rw [head_length_step_read hr]; omega

theorem History.head_length_step_read_le (history : History) :
    (history.step .read).sorter.head.length ≤ history.sorter.head.length := by
  by_cases h : history.sorter.read.1 = none
  · rw [step_read_of_none h]
  · exact (head_length_step_read_lt h).le

/-- How the view `b` of the run with the repeated push stands to the view `a` of the run
without it. -/
inductive Shadow : View → View → Prop
  /-- The runs agree. -/
  | same (view : View) : Shadow view view
  /-- The second copy `e` is still listed and has changed no read: an identical copy is
  listed before it, or it starts below `readOffset`, or it is empty. -/
  | extra (l₁ l₂ : List OffsetDataEntry) (e : OffsetDataEntry) (readOffset : Nat) (out : Bytes)
      (stale : e ∈ l₁ ∨ e.offset < readOffset ∨ e.data = []) :
      Shadow ⟨l₁ ++ l₂, readOffset, out⟩ ⟨l₁ ++ e :: l₂, readOffset, out⟩
  /-- One read behind: reading an empty copy cost a call. -/
  | lag (entry : OffsetDataEntry) (head : List OffsetDataEntry) (out : Bytes) :
      Shadow ⟨head, entry.offset + entry.data.length, out ++ entry.data⟩
        ⟨entry :: head, entry.offset, out⟩
  /-- Blocked: the first entry starts below `readOffset`. -/
  | stuck (view : View) (entry : OffsetDataEntry) (rest : List OffsetDataEntry)
      (readOffset : Nat) (out : Bytes) (hlt : entry.offset < readOffset) (hout : out <+: view.out) :
      Shadow view ⟨entry :: rest, readOffset, out⟩

namespace Shadow

/-- Under the relation the bytes read with the repetition are a prefix of those without. -/
theorem out_prefix {a b : View} (h : Shadow a b) : b.out <+: a.out := by
  cases h with
  | same => exact List.prefix_refl _
  | extra => exact List.prefix_refl _
  | lag => exact List.prefix_append _ _
  | stuck _ _ _ _ _ _ hout => exact hout

/-- A view stands to its own `read` as a run one read behind. -/
theorem read_self (view : View) : Shadow view.read view := by
  obtain ⟨head, readOffset, out⟩ := view
  cases head with
  | nil => exact .same _
  | cons entry rest =>
    simp only [View.read]
    split
    · next h => subst h; exact .lag entry rest out
    · exact .same _

theorem push {a b : View} (h : Shadow a b) (hb : OffsetSorted b.head) (entry : OffsetDataEntry) :
    Shadow (a.push entry) (b.push entry) := by
  cases h with
  | same => exact .same _
  | extra l₁ l₂ e readOffset out stale =>
    simp only [View.push, OffsetSorter.insertByOffset_append]
    split
    · exact .extra _ _ e _ _ (stale.imp_left fun he => OffsetSorter.mem_insertByOffset.mpr (.inr he))
    · have hl₂ : ∀ x ∈ l₂, e.offset ≤ x.offset :=
        (List.sorted_cons.mp (List.pairwise_append.mp hb).2.1).1
      by_cases he : entry.offset < e.offset
      · rw [OffsetSorter.insertByOffset_cons, if_pos he,
          OffsetSorter.insertByOffset_of_lt fun x hx => Nat.lt_of_lt_of_le he (hl₂ x hx)]
        simpa using Shadow.extra (l₁ ++ [entry]) l₂ e readOffset out
          (stale.imp_left fun h => List.mem_append_left _ h)
      · rw [OffsetSorter.insertByOffset_cons, if_neg he]
        exact .extra _ _ e _ _ stale
  | lag x head out =>
    simp only [View.push, OffsetSorter.insertByOffset_cons]
    split
    · next hlt => exact .stuck _ entry _ _ _ hlt (List.prefix_append _ _)
    · exact .lag x _ out
  | stuck view x rest readOffset out hlt hout =>
    simp only [View.push, OffsetSorter.insertByOffset_cons]
    split
    · next hlt' => exact .stuck _ entry _ _ _ (by omega) hout
    · exact .stuck _ x _ _ _ hlt hout

private theorem stale_read {x e : OffsetDataEntry} {l₁ : List OffsetDataEntry}
    (stale : e ∈ x :: l₁ ∨ e.offset < x.offset ∨ e.data = []) :
    e ∈ l₁ ∨ e.offset < x.offset + x.data.length ∨ e.data = [] := by
  rcases stale with he | hlt | hnil
  · rcases List.mem_cons.mp he with rfl | he
    · by_cases hd : e.data = []
      · exact .inr (.inr hd)
      · exact .inr (.inl (by have := List.length_pos.mpr hd; omega))
    · exact .inl he
  · exact .inr (.inl (by omega))
  · exact .inr (.inr hnil)

theorem read {a b : View} (h : Shadow a b) (hb : OffsetSorted b.head) : Shadow a.read b.read := by
  cases h with
  | same => exact .same _
  | extra l₁ l₂ e readOffset out stale =>
    cases l₁ with
    | nil =>
      simp only [List.nil_append, List.not_mem_nil, false_or] at stale hb ⊢
      rcases Nat.lt_trichotomy e.offset readOffset with hlt | heq | hgt
      · -- the second copy is first and below `readOffset`: blocked
        rw [View.read_of_ne (by omega)]
        exact .stuck _ e l₂ readOffset out hlt (View.out_prefix_read ⟨l₂, readOffset, out⟩)
      · -- an empty copy is read: one read behind
        have hempty : e.data = [] := stale.resolve_left (by omega)
        have hb' : (⟨e :: l₂, readOffset, out⟩ : View).read = ⟨l₂, readOffset, out⟩ := by
          simp [View.read, heq, hempty]
        rw [hb']
        exact read_self _
      · -- the next entry starts past `readOffset` in both runs: neither reads
        have ha' : (⟨l₂, readOffset, out⟩ : View).read = ⟨l₂, readOffset, out⟩ := by
          cases l₂ with
          | nil => rfl
          | cons x rest =>
            have := (List.sorted_cons.mp hb).1 x (List.mem_cons_self _ _)
            exact View.read_of_ne (by omega)
        rw [ha', View.read_of_ne (by omega)]
        exact .extra [] l₂ e readOffset out (.inr stale)
    | cons x l₁ =>
      simp only [View.read, List.cons_append]
      split
      · next hx =>
        subst hx
        exact .extra l₁ l₂ e _ _ (stale_read stale)
      · exact .extra (x :: l₁) l₂ e readOffset out stale
  | lag x head out =>
    rw [show (⟨x :: head, x.offset, out⟩ : View).read =
        ⟨head, x.offset + x.data.length, out ++ x.data⟩ from if_pos rfl]
    exact read_self _
  | stuck view x rest readOffset out hlt hout =>
    rw [View.read_of_ne (by omega)]
    exact .stuck _ x rest readOffset out hlt (hout.trans (View.out_prefix_read _))

theorem step {a b : View} (h : Shadow a b) (hb : OffsetSorted b.head) (op : Op) :
    Shadow (a.step op) (b.step op) := by
  cases op with
  | push data offset => exact h.push hb _
  | read => exact h.read hb
  | setEndOffset => exact h

end Shadow

/-- The relation holds right after the repeated push: the copy goes behind the listed
original, or the original was already read. -/
theorem shadow_push_pushed {history : History} (hi : history.Invariant) {entry : OffsetDataEntry}
    (he : entry ∈ history.pushed) :
    Shadow history.view (history.step (.push entry.data entry.offset)).view := by
  obtain ⟨l₁, l₂, h₁, h₂, h₃⟩ := OffsetSorter.insertByOffset_split entry hi.sorted
  rw [History.view_step]
  simp only [History.view, View.step, View.push, h₂]
  rw [h₁]
  refine .extra l₁ l₂ entry _ _ ?_
  rcases List.mem_append.mp (hi.perm.symm.subset he) with hr | hh
  · have := hi.end_le_readOffset hr
    by_cases hd : entry.data = []
    · exact .inr (.inr hd)
    · exact .inr (.inl (by have := List.length_pos.mpr hd; omega))
  · rw [h₁] at hh
    rcases List.mem_append.mp hh with h | h
    · exact .inl h
    · exact absurd (h₃ entry h) (lt_irrefl _)

theorem shadow_run {a b : History} (h : Shadow a.view b.view) (hb : b.Invariant) (ops : List Op) :
    Shadow (a.run ops).view (b.run ops).view := by
  induction ops generalizing a b with
  | nil => exact h
  | cons op ops ih =>
    exact ih (by rw [History.view_step, History.view_step]; exact h.step hb.sorted op) (hb.step op)

/-- Both runs read until `undefined`: the extra reads of one side are ranked by the lengths
of the two lists. -/
theorem shadow_drain {a b : History} (h : Shadow a.view b.view) (hb : b.Invariant) :
    Shadow a.drain.view b.drain.view := by
  generalize hn : a.sorter.head.length + b.sorter.head.length = n
  induction n using Nat.strong_induction_on generalizing a b with
  | _ n ih =>
    by_cases hnone : a.sorter.read.1 = none ∧ b.sorter.read.1 = none
    · rwa [History.drain_of_none hnone.1, History.drain_of_none hnone.2]
    · rw [← History.drain_step_read a, ← History.drain_step_read b]
      refine ih _ ?_ (by rw [History.view_step, History.view_step]; exact h.step hb.sorted .read)
        hb.read rfl
      have ha := History.head_length_step_read_le a
      have hb' := History.head_length_step_read_le b
      rcases not_and_or.mp hnone with hs | hs
      · have := History.head_length_step_read_lt hs; omega
      · have := History.head_length_step_read_lt hs; omega

/-- Pushing a chunk again, anywhere after its first push, can only cut short the bytes read
by the run and a final read until `undefined`: they are a prefix of those read without the
repetition. -/
theorem drain_output_prefix_of_duplicate (pre post : List Op) (data : Bytes) (offset : Nat)
    (h : Op.push data offset ∈ pre) :
    (History.init.run (pre ++ .push data offset :: post)).drain.output.flatten <+:
      (History.init.run (pre ++ post)).drain.output.flatten := by
  have hi := History.invariant_run_init pre
  have he : (⟨data, offset⟩ : OffsetDataEntry) ∈ (History.init.run pre).pushed := by
    simpa [History.pushed_run, History.init] using ⟨_, h, rfl⟩
  have hdrain := shadow_drain (shadow_run (shadow_push_pushed hi he) (hi.step _) post)
    ((hi.step _).run post)
  simpa [History.run_append, History.view] using hdrain.out_prefix

theorem drain_output_prefix_of_duplicate_one_two :
    Op.push [1] 0 ∈ [Op.push [1] 0] ∧
    (History.init.run ([Op.push [1] 0] ++ .push [1] 0 :: [.push [2] 1])).drain.output.flatten <+:
      (History.init.run ([Op.push [1] 0] ++ [.push [2] 1])).drain.output.flatten :=
  ⟨by decide, drain_output_prefix_of_duplicate _ _ _ _ (by decide)⟩

/-- Pushing the slice `[1]` of `[1, 2]` at 0 a second time blocks the read of `[2]`: reading
until `undefined` then yields `[1]`, not `[1, 2]`. -/
theorem duplicate_push_blocks_later_reads :
    (∀ entry ∈ [Op.push [1] 0, .push [1] 0, .push [2] 1].filterMap Op.entry?,
      IsSlice [1, 2] entry) ∧
    (History.init.run [.push [1] 0, .push [2] 1]).drain.output.flatten = [1, 2] ∧
    (History.init.run [.push [1] 0, .push [1] 0, .push [2] 1]).drain.output.flatten = [1] := by
  decide

end IlpStream.Data
