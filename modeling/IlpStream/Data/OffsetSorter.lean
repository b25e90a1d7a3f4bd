import IlpStream.Oer.Codec

/-!
# `OffsetSorter`

The reassembly buffer of incoming stream data, `src/test/index.test.ts:262–343`: a linked
list of `(data, offset)` entries from `head` in ascending offset order, of which `read`
hands out the head when it starts at `readOffset`. The linked list is the list of entries
reachable from `head`; offsets are JS numbers used as byte positions, so `Nat`, except
`endOffset`, which starts at `-1`.
A `History` runs the sorter on a list of calls and records what they did: the entries
pushed and the entries `read` handed out. `drain` is a caller's loop of `read` until it
returns `undefined`.
-/

namespace IlpStream.Data

/-- `OffsetDataEntry`, without its `next` link. -/
structure OffsetDataEntry where
  data : Bytes
  offset : Nat
  deriving DecidableEq, Repr

/-- `OffsetSorter`: the entries from `head` in list order, and the three offsets. -/
structure OffsetSorter where
  head : List OffsetDataEntry
  readOffset : Nat
  endOffset : Int
  maxOffset : Nat
  deriving DecidableEq, Repr

namespace OffsetSorter

/-- `new OffsetSorter()`. -/
def new : OffsetSorter := ⟨[], 0, -1, 0⟩

/-- `setEndOffset(offset)`. -/
def setEndOffset (sorter : OffsetSorter) (offset : Int) : OffsetSorter :=
  { sorter with endOffset := offset }

/-- `isEnd()`: `readOffset === endOffset`. -/
def isEnd (sorter : OffsetSorter) : Bool := decide ((sorter.readOffset : Int) = sorter.endOffset)

/-- The `while (true)` loop of `push`: walk from `prev` along `next` and link `entry` in
before the first entry of greater offset, or at the end. -/
def pushAfter (entry prev : OffsetDataEntry) : List OffsetDataEntry → List OffsetDataEntry
  | [] => [prev, entry]
  | next :: rest =>
    if next.offset > entry.offset then prev :: entry :: next :: rest
    else prev :: pushAfter entry next rest

/-- `push(data, offset)`, `index.test.ts:296–321`. -/
def push (sorter : OffsetSorter) (data : Bytes) (offset : Nat) : OffsetSorter :=
  let entry : OffsetDataEntry := ⟨data, offset⟩
  let maxOffset := max (offset + data.length) sorter.maxOffset
  match sorter.head with
  | [] => { sorter with head := [entry], maxOffset }
  | head :: rest =>
    if head.offset > offset then { sorter with head := entry :: head :: rest, maxOffset }
    else { sorter with head := pushAfter entry head rest, maxOffset }

/-- `read()`, `index.test.ts:323–331`: the head's buffer if it starts at `readOffset`,
else `undefined`. -/
def read (sorter : OffsetSorter) : Option Bytes × OffsetSorter :=
  match sorter.head with
  | head :: rest =>
    if sorter.readOffset = head.offset then
      (some head.data, { sorter with readOffset := head.offset + head.data.length, head := rest })
    else (none, sorter)
  | [] => (none, sorter)

/-- `byteLength()`, `index.test.ts:334–342`. -/
def byteLength (sorter : OffsetSorter) : Nat :=
  sorter.head.foldl (fun length entry => length + entry.data.length) 0

/-- Stable insertion by offset: before the first entry of greater offset. -/
def insertByOffset (entry : OffsetDataEntry) : List OffsetDataEntry → List OffsetDataEntry
  | [] => [entry]
  | next :: rest =>
    if next.offset > entry.offset then entry :: next :: rest else next :: insertByOffset entry rest

theorem pushAfter_eq (entry prev : OffsetDataEntry) (rest : List OffsetDataEntry) :
    pushAfter entry prev rest = prev :: insertByOffset entry rest := by
  induction rest generalizing prev with
  | nil => rfl
  | cons next rest ih =>
    simp only [pushAfter, insertByOffset]
    split <;> simp [ih]

/-- `push` links the entry in by stable insertion. -/
@[simp] theorem push_head (sorter : OffsetSorter) (data : Bytes) (offset : Nat) :
    (sorter.push data offset).head = insertByOffset ⟨data, offset⟩ sorter.head := by
  unfold push
  split
  · next h => simp [h, insertByOffset]
  · next head rest h =>
    simp only [h, insertByOffset]
    split <;> simp [pushAfter_eq]

@[simp] theorem push_readOffset (sorter : OffsetSorter) (data : Bytes) (offset : Nat) :
    (sorter.push data offset).readOffset = sorter.readOffset := by
  unfold push; split <;> (try split) <;> rfl

@[simp] theorem push_endOffset (sorter : OffsetSorter) (data : Bytes) (offset : Nat) :
    (sorter.push data offset).endOffset = sorter.endOffset := by
  unfold push; split <;> (try split) <;> rfl

@[simp] theorem push_maxOffset (sorter : OffsetSorter) (data : Bytes) (offset : Nat) :
    (sorter.push data offset).maxOffset = max (offset + data.length) sorter.maxOffset := by
  unfold push; split <;> (try split) <;> rfl

@[simp] theorem read_endOffset (sorter : OffsetSorter) : sorter.read.2.endOffset = sorter.endOffset := by
  unfold read; split <;> (try split) <;> rfl

/-- `read` hands out a buffer exactly when the head starts at `readOffset`; it then drops
the head and advances `readOffset` past it. -/
theorem read_eq_some {sorter next : OffsetSorter} {data : Bytes} :
    sorter.read = (some data, next) ↔ ∃ rest,
      sorter.head = ⟨data, sorter.readOffset⟩ :: rest ∧
      next = { sorter with readOffset := sorter.readOffset + data.length, head := rest } := by
  unfold read
  split
  · next head rest h =>
    split
    · next hr =>
      obtain ⟨hdata, hoffset⟩ := head
      simp only at hr
      subst hr
      constructor
      · rintro ⟨rfl, rfl⟩; exact ⟨rest, by simp [h]⟩
      · rintro ⟨rest', h', rfl⟩
        rw [h] at h'
        cases h'
        simp
    · next hr =>
      simp only [Prod.mk.injEq, reduceCtorEq, false_and, false_iff, not_exists, not_and]
      intro rest' h'
      rw [h] at h'
      cases h'
      exact fun _ => hr rfl
  · next h => simp [h]

/-- When `read` returns `undefined` it changes nothing. -/
theorem read_of_none {sorter : OffsetSorter} (h : sorter.read.1 = none) :
    sorter.read.2 = sorter := by
  unfold read at h ⊢
  split
  · next head rest hs =>
    rw [hs] at h
    simp only at h
    split
    · next hr => simp [hr] at h
    · rfl
  · rfl

/-- `read` returns `undefined` exactly when the list is empty or its head starts elsewhere. -/
theorem read_none_iff {sorter : OffsetSorter} :
    sorter.read.1 = none ↔ ∀ head rest, sorter.head = head :: rest → head.offset ≠ sorter.readOffset := by
  unfold read
  split
  · next head rest h =>
    split
    · next hr => simp [h, hr]
    · next hr => simp only [h, true_iff]; rintro _ _ ⟨rfl, rfl⟩; exact Ne.symm hr
  · next h => simp [h]

end OffsetSorter

/-- A call on the sorter. -/
inductive Op
  | push (data : Bytes) (offset : Nat)
  | read
  | setEndOffset (offset : Int)
  deriving DecidableEq, Repr

/-- The entry a call pushes, if it is a `push`. -/
def Op.entry? : Op → Option OffsetDataEntry
  | .push data offset => some ⟨data, offset⟩
  | _ => none

/-- The offset a call sets the end to, if it is a `setEndOffset`. -/
def Op.endOffset? : Op → Option Int
  | .setEndOffset offset => some offset
  | _ => none

/-- The sorter with the history of the calls made on it: every entry pushed, in push
order, and every entry `read` handed out (its buffer, at the offset it was read from). -/
structure History where
  sorter : OffsetSorter
  pushed : List OffsetDataEntry
  returned : List OffsetDataEntry
  deriving DecidableEq, Repr

namespace History

/-- A fresh sorter, no calls made. -/
def init : History := ⟨OffsetSorter.new, [], []⟩

/-- One call. -/
def step (history : History) : Op → History
  | .push data offset =>
    ⟨history.sorter.push data offset, history.pushed ++ [⟨data, offset⟩], history.returned⟩
  | .read =>
    match history.sorter.read with
    | (some data, sorter) =>
      ⟨sorter, history.pushed, history.returned ++ [⟨data, history.sorter.readOffset⟩]⟩
    | (none, sorter) => ⟨sorter, history.pushed, history.returned⟩
  | .setEndOffset offset => ⟨history.sorter.setEndOffset offset, history.pushed, history.returned⟩

/-- The calls `ops`, one after another. -/
def run (history : History) (ops : List Op) : History := ops.foldl step history

/-- The buffers `read` returned, in order. -/
def output (history : History) : List Bytes := history.returned.map (·.data)

/-- Calls of `read`, at most `fuel` of them, until it returns `undefined`. -/
def drainFuel : Nat → History → History
  | 0, history => history
  | fuel + 1, history =>
    if history.sorter.read.1.isSome then drainFuel fuel (history.step .read) else history

/-- `read()` called until it returns `undefined`: each call that returns a buffer removes an
entry, so the list's length bounds the calls. -/
def drain (history : History) : History := drainFuel history.sorter.head.length history

@[simp] theorem run_nil (history : History) : history.run [] = history := rfl

@[simp] theorem run_cons (history : History) (op : Op) (ops : List Op) :
    history.run (op :: ops) = (history.step op).run ops := rfl

theorem run_append (history : History) (ops ops' : List Op) :
    history.run (ops ++ ops') = (history.run ops).run ops' := List.foldl_append _ _ _ _

/-- The recorded pushes are the `push` calls, in call order. -/
theorem pushed_run (history : History) (ops : List Op) :
    (history.run ops).pushed = history.pushed ++ ops.filterMap Op.entry? := by
  induction ops generalizing history with
  | nil => simp
  | cons op ops ih =>
    rw [run_cons, ih]
    cases op <;> simp only [step, Op.entry?, List.filterMap_cons, List.append_assoc] <;> try rfl
    split <;> rfl

/-- Only `setEndOffset` moves the end offset. -/
theorem endOffset_step (history : History) (op : Op) :
    (history.step op).sorter.endOffset = op.endOffset?.getD history.sorter.endOffset := by
  cases op with
  | push data offset => simp [step, Op.endOffset?]
  | read =>
    have hread := OffsetSorter.read_endOffset history.sorter
    rcases hr : history.sorter.read with ⟨_ | data, sorter⟩ <;>
      rw [hr] at hread <;> simpa [step, hr, Op.endOffset?] using hread
  | setEndOffset offset => rfl

/-- After a run, the end offset is the argument of the run's last `setEndOffset`, or what it was
before the run when it made none. -/
theorem endOffset_run (history : History) (ops : List Op) :
    (history.run ops).sorter.endOffset =
      (ops.filterMap Op.endOffset?).getLast?.getD history.sorter.endOffset := by
  induction ops generalizing history with
  | nil => rfl
  | cons op ops ih =>
    rw [run_cons, ih, endOffset_step]
    cases op <;> simp [Op.endOffset?, List.getLast?_cons]

theorem step_read_of_some {history : History} {data : Bytes} {sorter : OffsetSorter}
    (h : history.sorter.read = (some data, sorter)) :
    history.step .read =
      ⟨sorter, history.pushed, history.returned ++ [⟨data, history.sorter.readOffset⟩]⟩ := by
  simp [step, h]

/-- A `read` that returns `undefined` leaves the history as it was. -/
theorem step_read_of_none {history : History} (h : history.sorter.read.1 = none) :
    history.step .read = history := by
  have h2 := OffsetSorter.read_of_none h
  rcases hr : history.sorter.read with ⟨_ | data, sorter⟩
  · rw [hr] at h2
    simp only at h2
    simp only [step, hr, h2]
  · rw [hr] at h
    cases h

theorem head_length_step_read {history : History} {data : Bytes} {sorter : OffsetSorter}
    (h : history.sorter.read = (some data, sorter)) :
    history.sorter.head.length = (history.step .read).sorter.head.length + 1 := by
  obtain ⟨rest, hh, rfl⟩ := OffsetSorter.read_eq_some.mp h
  simp [step_read_of_some h, hh]

private theorem drainFuel_of_none (fuel : Nat) {history : History}
    (h : history.sorter.read.1 = none) : drainFuel fuel history = history := by
  cases fuel <;> simp [drainFuel, h]

/-- Draining from a history whose `read` returns `undefined` reads nothing. -/
theorem drain_of_none {history : History} (h : history.sorter.read.1 = none) :
    history.drain = history := drainFuel_of_none _ h

/-- Draining reads the same whether or not one more `read` came first. -/
theorem drain_step_read (history : History) : (history.step .read).drain = history.drain := by
  cases hr : history.sorter.read with
  | mk out sorter =>
    cases out with
    | none => rw [step_read_of_none (by rw [hr])]
    | some data =>
      have hl := head_length_step_read hr
      simp only [drain, hl, drainFuel, hr, Option.isSome_some, if_true]

/-- After draining, `read` returns `undefined`. -/
theorem read_drain (history : History) : history.drain.sorter.read.1 = none := by
  generalize hn : history.sorter.head.length = n
  induction n using Nat.strong_induction_on generalizing history with
  | _ n ih =>
    cases hr : history.sorter.read with
    | mk out sorter =>
      cases out with
      | none => rw [drain_of_none (by rw [hr])]; rw [hr]
      | some data =>
        rw [← drain_step_read]
        exact ih _ (by rw [← hn, head_length_step_read hr]; omega) _ rfl

/-- A property kept by every `read` holds after draining. -/
theorem drain_induction {motive : History → Prop} (step_read : ∀ h, motive h → motive (h.step .read))
    (history : History) (h : motive history) : motive history.drain := by
  generalize hn : history.sorter.head.length = n
  induction n using Nat.strong_induction_on generalizing history with
  | _ n ih =>
    cases hr : history.sorter.read with
    | mk out sorter =>
      cases out with
      | none => rwa [drain_of_none (by rw [hr])]
      | some data =>
        rw [← drain_step_read]
        exact ih _ (by rw [← hn, head_length_step_read hr]; omega) _ (step_read _ h) rfl

/-- Draining leaves the end offset as it was. -/
theorem endOffset_drain (history : History) :
    history.drain.sorter.endOffset = history.sorter.endOffset :=
  drain_induction (motive := fun h => h.sorter.endOffset = history.sorter.endOffset)
    (fun h hh => (endOffset_step h .read).trans hh) history rfl

end History
end IlpStream.Data
