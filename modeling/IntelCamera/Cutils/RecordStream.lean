import IntelCamera.Lib.Bytes
import IntelCamera.Lib.Runs

/-!
# Cutils.RecordStream — records out of a byte stream

`record_stream_get_next` takes length-prefixed records out of a file descriptor through a buffer that
holds one record and its header.  `read` may return any part of what was sent, so a record can arrive in
pieces, and several can arrive at once.

The bytes of the buffer that are not consumed yet, `RecordStream.pending`, are all a call depends on
(`getNextRecord_eq`, `getNext_cases`), and what was sent is always the records returned, the pending
bytes and the bytes in flight, one after the other (`StreamInv`).  Framing can be undone in one way only
(`frames_prefix`), so the records returned are those that were sent.
-/

namespace IntelCamera

open Lib

namespace Cutils

/-! ### The stream -/

abbrev HEADER_SIZE : ℕ := 4

abbrev EAGAIN : ℕ := 11

/-- `RecordStream`: the pointers into `buffer` are offsets, and `buffer_end` is the end of it. -/
structure RecordStream where
  maxRecordLen : ℕ
  buffer : List UInt8
  unconsumed : ℕ
  readEnd : ℕ
  deriving DecidableEq

namespace RecordStream

def bufferEnd (rs : RecordStream) : ℕ := rs.maxRecordLen + HEADER_SIZE

end RecordStream

/-- `record_stream_new`, over memory that `malloc` left as it was.  It stops at the assertion. -/
def recordStreamNew (maxRecordLen : ℕ) (memory : ℕ → UInt8) : Option RecordStream :=
  if maxRecordLen ≤ 0xffff then
    some ⟨maxRecordLen, (List.range (maxRecordLen + HEADER_SIZE)).map memory, 0, 0⟩
  else none

/-- `ntohl` of the four bytes in memory. -/
def ntohl (l : List UInt8) : ℕ := leNat l.reverse

/-- `getEndOfRecord`; the header has 32 bits, where the comment of `record_stream_get_next` says 16. -/
def getEndOfRecord (buffer : List UInt8) (pBegin pEnd : ℕ) : Option ℕ :=
  if pEnd < pBegin + HEADER_SIZE then none
  else
    let len := ntohl (slice buffer pBegin HEADER_SIZE)
    let pRet := pBegin + HEADER_SIZE + len
    if pEnd < pRet then none else some pRet

/-- `getNextRecord`: the record, and the stream after it. -/
def getNextRecord (rs : RecordStream) : Option (List UInt8 × RecordStream) :=
  match getEndOfRecord rs.buffer rs.unconsumed rs.readEnd with
  | some recordEnd =>
    let recordStart := rs.unconsumed + HEADER_SIZE
    some (slice rs.buffer recordStart (recordEnd - recordStart), { rs with unconsumed := recordEnd })
  | none => none

/-- The remainder, moved to the beginning of the buffer. -/
def moveRemainder (rs : RecordStream) : RecordStream :=
  if rs.unconsumed ≠ 0 then
    let toMove := rs.readEnd - rs.unconsumed
    { rs with buffer := memmove rs.buffer 0 rs.unconsumed toMove, readEnd := toMove, unconsumed := 0 }
  else rs

/-- What `read` wrote behind `read_end`. -/
def appendRead (rs : RecordStream) (bs : List UInt8) : RecordStream :=
  { rs with buffer := memcpy rs.buffer rs.readEnd bs, readEnd := rs.readEnd + bs.length }

/-- The result of `read`: no bytes at the end of the stream, or -1 and `errno`. -/
inductive ReadResult
  | bytes (bs : List UInt8)
  | error (errno : ℕ)

/-- What a call returns: 0 and a record, 0 and `NULL`, -1 and `errno`; or it stops at the assertion. -/
inductive Outcome
  | record (r : List UInt8)
  | endOfStream
  | failed (errno : ℕ)
  | aborted
  deriving DecidableEq

/-- `record_stream_get_next`, over any world `ω` that `read` takes from. -/
def recordStreamGetNext {ω : Type} (read : ω → ℕ → ReadResult × ω) (rs : RecordStream) (w : ω) :
    Outcome × RecordStream × ω :=
  match getNextRecord rs with
  | some (r, rs') => (.record r, rs', w)
  | none =>
    -- the buffer is full and has no full record: `assert (0)`
    if rs.unconsumed = 0 ∧ rs.readEnd = rs.bufferEnd then (.aborted, rs, w)
    else
      let moved := moveRemainder rs
      match read w (moved.bufferEnd - moved.readEnd) with
      | (.error e, w') => (.failed e, moved, w')
      | (.bytes [], w') => (.endOfStream, moved, w')
      | (.bytes (b :: bs), w') =>
        match getNextRecord (appendRead moved (b :: bs)) with
        | none => (.failed EAGAIN, appendRead moved (b :: bs), w')
        | some (r, rs') => (.record r, rs', w')

/-! ### Framing -/

/-- A record as it is sent: its length in network order, and its bytes. -/
def frame (r : List UInt8) : List UInt8 := (leBytes HEADER_SIZE r.length).reverse ++ r

/-- The first record of `bs` and what follows it. -/
def unframe (bs : List UInt8) : Option (List UInt8 × List UInt8) :=
  if bs.length < HEADER_SIZE + ntohl (bs.take HEADER_SIZE) then none
  else
    some (slice bs HEADER_SIZE (ntohl (bs.take HEADER_SIZE)),
      bs.drop (HEADER_SIZE + ntohl (bs.take HEADER_SIZE)))

theorem length_frame (r : List UInt8) : (frame r).length = HEADER_SIZE + r.length := by
  simp [frame, length_leBytes]

theorem take_frame (r bs : List UInt8) :
    (frame r ++ bs).take HEADER_SIZE = (leBytes HEADER_SIZE r.length).reverse := by
  unfold frame
  rw [List.append_assoc, List.take_left']
  simp [length_leBytes]

theorem ntohl_frame {r : List UInt8} (hr : r.length < 2 ^ 32) (bs : List UInt8) :
    ntohl ((frame r ++ bs).take HEADER_SIZE) = r.length := by
  rw [take_frame, ntohl, List.reverse_reverse]
  exact leNat_leBytes (by norm_num; exact hr)

theorem ntohl_lt {l : List UInt8} (hl : l.length = HEADER_SIZE) : ntohl l < 2 ^ 32 := by
  have h := leNat_lt l.reverse
  rw [List.length_reverse, hl] at h
  norm_num at h ⊢
  exact h

theorem unframe_frame {r : List UInt8} (hr : r.length < 2 ^ 32) (bs : List UInt8) :
    unframe (frame r ++ bs) = some (r, bs) := by
  have hd : (frame r ++ bs).drop HEADER_SIZE = r ++ bs := by
    unfold frame
    rw [List.append_assoc, List.drop_left']
    simp [length_leBytes]
  unfold unframe
  rw [ntohl_frame hr, if_neg, slice, ← List.drop_drop, hd]
  · simp
  · simp [length_frame]

theorem frame_of_unframe {bs r rest : List UInt8} (h : unframe bs = some (r, rest)) :
    bs = frame r ++ rest ∧ r.length < 2 ^ 32 := by
  unfold unframe at h
  obtain ⟨hlen, he⟩ := Option.ite_none_left_eq_some.mp h
  obtain ⟨rfl, rfl⟩ := Prod.mk.inj (Option.some.inj he)
  have ht : (bs.take HEADER_SIZE).length = HEADER_SIZE := by
    rw [List.length_take]
    omega
  have hr : (slice bs HEADER_SIZE (ntohl (bs.take HEADER_SIZE))).length =
      ntohl (bs.take HEADER_SIZE) := length_slice (by omega)
  refine ⟨?_, by rw [hr]; exact ntohl_lt ht⟩
  have hhead : (leBytes HEADER_SIZE (ntohl (bs.take HEADER_SIZE))).reverse = bs.take HEADER_SIZE := by
    have hb := leBytes_leNat (bs.take HEADER_SIZE).reverse
    rw [List.length_reverse, ht] at hb
    rw [ntohl, hb, List.reverse_reverse]
  unfold frame
  rw [hr, hhead, slice, List.append_assoc, ← List.drop_drop, List.take_append_drop,
    List.take_append_drop]

/-- **Framing is undone in one way only.** -/
theorem frames_prefix {rs ms : List (List UInt8)} {tail : List UInt8}
    (hr : ∀ r ∈ rs, r.length < 2 ^ 32) (hm : ∀ m ∈ ms, m.length < 2 ^ 32)
    (h : rs.flatMap frame ++ tail <+: ms.flatMap frame) :
    ∃ ms', ms = rs ++ ms' ∧ tail <+: ms'.flatMap frame := by
  induction rs generalizing ms with
  | nil => exact ⟨ms, rfl, h⟩
  | cons r rs ih =>
    obtain ⟨z, hz⟩ := h
    cases ms with
    | nil =>
      have hl := congrArg List.length hz
      simp [length_frame] at hl
    | cons m ms =>
      simp only [List.flatMap_cons, List.append_assoc] at hz
      have hu := congrArg unframe hz
      rw [unframe_frame (hr r List.mem_cons_self), unframe_frame (hm m List.mem_cons_self)] at hu
      obtain ⟨rfl, hrest⟩ := Prod.mk.inj (Option.some.inj hu)
      obtain ⟨ms', rfl, ht⟩ := ih (fun r hr' => hr r (List.mem_cons_of_mem _ hr'))
        (fun m hm' => hm m (List.mem_cons_of_mem _ hm')) ⟨z, by rw [List.append_assoc]; exact hrest⟩
      exact ⟨ms', rfl, ht⟩

/-! ### The pending bytes -/

namespace RecordStream

/-- The bytes between `unconsumed` and `read_end`. -/
def pending (rs : RecordStream) : List UInt8 :=
  slice rs.buffer rs.unconsumed (rs.readEnd - rs.unconsumed)

/-- The pointers are in order and inside the buffer. -/
structure WF (rs : RecordStream) : Prop where
  length : rs.buffer.length = rs.bufferEnd
  order : rs.unconsumed ≤ rs.readEnd
  inside : rs.readEnd ≤ rs.bufferEnd

variable {rs : RecordStream}

theorem WF.length_pending (hw : rs.WF) : rs.pending.length = rs.readEnd - rs.unconsumed := by
  have h1 := hw.length
  have h2 := hw.order
  have h3 := hw.inside
  exact length_slice (by omega)

theorem WF.length_pending_le (hw : rs.WF) : rs.pending.length ≤ rs.bufferEnd := by
  have h3 := hw.inside
  rw [hw.length_pending]
  omega

end RecordStream

open RecordStream

variable {rs : RecordStream}

theorem recordStreamNew_spec {n : ℕ} {memory : ℕ → UInt8} (h : recordStreamNew n memory = some rs) :
    rs.WF ∧ rs.pending = [] ∧ rs.maxRecordLen = n ∧ n ≤ 0xffff := by
  unfold recordStreamNew at h
  obtain ⟨hn, rfl⟩ := guarded h
  refine ⟨⟨?_, le_rfl, Nat.zero_le _⟩, ?_, rfl, hn⟩
  · simp [bufferEnd]
  · simp [pending, slice]

/-- The header at `unconsumed` is the header of the pending bytes. -/
theorem slice_pending (rs : RecordStream) {o n : ℕ} (h : o + n ≤ rs.readEnd - rs.unconsumed) :
    slice rs.pending o n = slice rs.buffer (rs.unconsumed + o) n := by
  unfold pending
  apply List.ext_getElem?
  intro i
  rw [getElem?_slice, getElem?_slice, getElem?_slice]
  by_cases hi : i < n
  · rw [if_pos hi, if_pos hi, if_pos (by omega), Nat.add_assoc]
  · rw [if_neg hi, if_neg hi]

/-- **A record is taken off the pending bytes**, and nothing else changes. -/
theorem getNextRecord_some (hw : rs.WF) {r rest : List UInt8}
    (h : unframe rs.pending = some (r, rest)) :
    ∃ rs', getNextRecord rs = some (r, rs') ∧ rs'.WF ∧ rs'.pending = rest ∧
      rs'.maxRecordLen = rs.maxRecordLen := by
  have hp := hw.length_pending
  have ho := hw.order
  unfold unframe at h
  obtain ⟨hlen, he⟩ := Option.ite_none_left_eq_some.mp h
  obtain ⟨rfl, rfl⟩ := Prod.mk.inj (Option.some.inj he)
  have hhead : rs.pending.take HEADER_SIZE = slice rs.buffer rs.unconsumed HEADER_SIZE := by
    have := slice_pending rs (o := 0) (n := HEADER_SIZE) (by omega)
    simpa [slice] using this
  rw [hhead] at hlen ⊢
  generalize hn : ntohl (slice rs.buffer rs.unconsumed HEADER_SIZE) = n at *
  have hend : getEndOfRecord rs.buffer rs.unconsumed rs.readEnd =
      some (rs.unconsumed + HEADER_SIZE + n) := by
    unfold getEndOfRecord
    rw [if_neg (by omega)]
    simp only [hn]
    rw [if_neg (by omega)]
  refine ⟨{ rs with unconsumed := rs.unconsumed + HEADER_SIZE + n }, ?_, ⟨hw.length, ?_, hw.inside⟩,
    ?_, rfl⟩
  · unfold getNextRecord
    rw [hend]
    simp only [Option.some.injEq, Prod.mk.injEq, and_true]
    rw [slice_pending rs (by omega)]
    congr 1
    omega
  · simp only
    omega
  · simp only [pending, slice]
    rw [List.drop_take, List.drop_drop]
    congr 1
    · omega
    · congr 1
      omega

theorem getNextRecord_none (hw : rs.WF) (h : unframe rs.pending = none) : getNextRecord rs = none := by
  have hp := hw.length_pending
  unfold unframe at h
  have hlen : rs.pending.length < HEADER_SIZE + ntohl (rs.pending.take HEADER_SIZE) := by
    by_contra hlen
    rw [if_neg hlen] at h
    cases h
  have hend : getEndOfRecord rs.buffer rs.unconsumed rs.readEnd = none := by
    unfold getEndOfRecord
    by_cases h4 : rs.readEnd < rs.unconsumed + HEADER_SIZE
    · rw [if_pos h4]
    · have hhead : rs.pending.take HEADER_SIZE = slice rs.buffer rs.unconsumed HEADER_SIZE := by
        have := slice_pending rs (o := 0) (n := HEADER_SIZE) (by omega)
        simpa [slice] using this
      rw [hhead] at hlen
      rw [if_neg h4]
      simp only
      rw [if_pos (by omega)]
  unfold getNextRecord
  rw [hend]

theorem moveRemainder_spec (hw : rs.WF) :
    (moveRemainder rs).WF ∧ (moveRemainder rs).pending = rs.pending ∧
      (moveRemainder rs).maxRecordLen = rs.maxRecordLen ∧ (moveRemainder rs).unconsumed = 0 := by
  have h1 := hw.length
  have h2 := hw.order
  have h3 := hw.inside
  unfold moveRemainder
  by_cases hu : rs.unconsumed = 0
  · rw [if_neg (not_not.mpr hu)]
    exact ⟨hw, rfl, rfl, hu⟩
  · rw [if_pos hu]
    refine ⟨⟨?_, Nat.zero_le _, ?_⟩, ?_, rfl, rfl⟩
    · simp only
      rw [length_memmove (by omega) (by omega)]
      exact h1
    · simp only [bufferEnd] at *
      omega
    · have hl : (slice rs.buffer rs.unconsumed (rs.readEnd - rs.unconsumed)).length =
          rs.readEnd - rs.unconsumed := length_slice (by omega)
      have hs : slice (memmove rs.buffer 0 rs.unconsumed (rs.readEnd - rs.unconsumed)) 0
          (slice rs.buffer rs.unconsumed (rs.readEnd - rs.unconsumed)).length =
            slice rs.buffer rs.unconsumed (rs.readEnd - rs.unconsumed) :=
        slice_memcpy_self (Nat.zero_le _)
      rw [hl] at hs
      simpa [pending] using hs

theorem appendRead_spec (hw : rs.WF) (hu : rs.unconsumed = 0) {bs : List UInt8}
    (hb : bs.length ≤ rs.bufferEnd - rs.readEnd) :
    (appendRead rs bs).WF ∧ (appendRead rs bs).pending = rs.pending ++ bs ∧
      (appendRead rs bs).maxRecordLen = rs.maxRecordLen := by
  have h1 := hw.length
  have h3 := hw.inside
  unfold appendRead
  refine ⟨⟨?_, ?_, ?_⟩, ?_, rfl⟩
  · simp only
    rw [length_memcpy (by omega)]
    exact h1
  · simp only
    omega
  · simp only [bufferEnd] at *
    omega
  · have ht : (rs.buffer.take rs.readEnd ++ bs).length = rs.readEnd + bs.length := by
      rw [List.length_append, List.length_take]
      omega
    simp only [pending, slice, memcpy, hu, Nat.sub_zero, List.drop_zero]
    exact List.take_left' ht

/-! ### One call, over the pending bytes -/

section Call

variable {ω : Type} (read : ω → ℕ → ReadResult × ω) (maxRecordLen : ℕ)

/-- What a call does to the pending bytes: the buffer, its pointers and the moves are gone. -/
inductive Next (pending : List UInt8) (w : ω) : Outcome → List UInt8 → ω → Prop
  | buffered {r rest : List UInt8} (h : unframe pending = some (r, rest)) :
      Next pending w (.record r) rest w
  | full (h : unframe pending = none) (hf : pending.length = maxRecordLen + HEADER_SIZE) :
      Next pending w .aborted pending w
  | error {e : ℕ} {w' : ω} (h : unframe pending = none)
      (hr : read w (maxRecordLen + HEADER_SIZE - pending.length) = (.error e, w')) :
      Next pending w (.failed e) pending w'
  | ended {w' : ω} (h : unframe pending = none)
      (hr : read w (maxRecordLen + HEADER_SIZE - pending.length) = (.bytes [], w'))
      (hf : pending.length < maxRecordLen + HEADER_SIZE) :
      Next pending w .endOfStream pending w'
  | short {bs : List UInt8} {w' : ω} (h : unframe pending = none) (hne : bs ≠ [])
      (hr : read w (maxRecordLen + HEADER_SIZE - pending.length) = (.bytes bs, w'))
      (hb : unframe (pending ++ bs) = none) :
      Next pending w (.failed EAGAIN) (pending ++ bs) w'
  | arrived {bs r rest : List UInt8} {w' : ω} (h : unframe pending = none) (hne : bs ≠ [])
      (hr : read w (maxRecordLen + HEADER_SIZE - pending.length) = (.bytes bs, w'))
      (hb : unframe (pending ++ bs) = some (r, rest)) :
      Next pending w (.record r) rest w'

variable {read}

/-- **`record_stream_get_next` refines `Next`**, if `read` returns no more than it is asked for. -/
theorem getNext_next (hread : ∀ w n bs w', read w n = (.bytes bs, w') → bs.length ≤ n) (hw : rs.WF)
    (w : ω) :
    Next read rs.maxRecordLen rs.pending w (recordStreamGetNext read rs w).1
        (recordStreamGetNext read rs w).2.1.pending (recordStreamGetNext read rs w).2.2 ∧
      (recordStreamGetNext read rs w).2.1.WF ∧
      (recordStreamGetNext read rs w).2.1.maxRecordLen = rs.maxRecordLen := by
  have hp := hw.length_pending
  have ho := hw.order
  have hi := hw.inside
  cases hu : unframe rs.pending with
  | some x =>
    obtain ⟨r, rest⟩ := x
    obtain ⟨rs', hg, hw', rfl, hm⟩ := getNextRecord_some hw hu
    simp only [recordStreamGetNext, hg]
    exact ⟨.buffered hu, hw', hm⟩
  | none =>
    have hg := getNextRecord_none hw hu
    by_cases hfull : rs.unconsumed = 0 ∧ rs.readEnd = rs.bufferEnd
    · simp only [recordStreamGetNext, hg, if_pos hfull]
      refine ⟨.full hu ?_, hw, trivial⟩
      rw [hp, hfull.1, hfull.2]
      rfl
    · obtain ⟨hwm, hpm, hmm, hum⟩ := moveRemainder_spec hw
      have hroom : (moveRemainder rs).bufferEnd - (moveRemainder rs).readEnd =
          rs.maxRecordLen + HEADER_SIZE - rs.pending.length := by
        rw [← hpm, hwm.length_pending, hum, bufferEnd, hmm, Nat.sub_zero]
      have hlt : rs.pending.length < rs.maxRecordLen + HEADER_SIZE := by
        unfold bufferEnd at *
        omega
      cases hr : read w (rs.maxRecordLen + HEADER_SIZE - rs.pending.length) with
      | mk res w' =>
        cases res with
        | error e =>
          simp only [recordStreamGetNext, hg, if_neg hfull, hroom, hr, hpm]
          exact ⟨.error hu hr, hwm, hmm⟩
        | bytes bs =>
          cases bs with
          | nil =>
            simp only [recordStreamGetNext, hg, if_neg hfull, hroom, hr, hpm]
            exact ⟨.ended hu hr hlt, hwm, hmm⟩
          | cons b bs =>
            have hb := hread _ _ _ _ hr
            rw [← hroom] at hb
            obtain ⟨hwa, hpa, hma⟩ := appendRead_spec hwm hum hb
            rw [hpm] at hpa
            cases hu' : unframe (rs.pending ++ b :: bs) with
            | none =>
              have hg' := getNextRecord_none hwa (by rw [hpa]; exact hu')
              simp only [recordStreamGetNext, hg, if_neg hfull, hroom, hr, hg', hpa]
              exact ⟨.short hu (List.cons_ne_nil b bs) hr hu', hwa, hma.trans hmm⟩
            | some x =>
              obtain ⟨r, rest⟩ := x
              obtain ⟨rs', hg', hw', rfl, hm⟩ := getNextRecord_some hwa (by rw [hpa]; exact hu')
              simp only [recordStreamGetNext, hg, if_neg hfull, hroom, hr, hg']
              exact ⟨.arrived hu (List.cons_ne_nil b bs) hr hu', hw', hm.trans (hma.trans hmm)⟩

end Call

/-! ### Runs -/

/-- The reading end of a connection: `sent` are all the bytes that were written to the other end,
`records` what the calls returned. -/
structure Connection where
  stream : RecordStream
  sent : List UInt8
  inFlight : List UInt8
  closed : Bool
  records : List (List UInt8)
  ended : Bool
  aborted : Bool

/-- The other end writes or closes; this end calls `record_stream_get_next`, and if that reads, `read`
returns at most `k` bytes, or fails. -/
inductive StreamAct
  | send (bs : List UInt8)
  | close
  | getNext (k : ℕ)
  | getNextFails (errno : ℕ)

/-- `read` of a descriptor that has `w` in flight. -/
def readUpTo (k : ℕ) (w : List UInt8) (n : ℕ) : ReadResult × List UInt8 :=
  (.bytes (w.take (min k n)), w.drop (min k n))

def readFails (errno : ℕ) (w : List UInt8) (_ : ℕ) : ReadResult × List UInt8 := (.error errno, w)

def Connection.returned (s : Connection) (res : Outcome × RecordStream × List UInt8) : Connection :=
  { s with
    stream := res.2.1
    inFlight := res.2.2
    records := match res.1 with
      | .record r => s.records ++ [r]
      | _ => s.records
    ended := s.ended || res.1 == .endOfStream
    aborted := res.1 == .aborted }

def streamStep (s : Connection) (a : StreamAct) : Option Connection :=
  if s.aborted then none
  else
    match a with
    | .send bs =>
      if s.closed then none else some { s with sent := s.sent ++ bs, inFlight := s.inFlight ++ bs }
    | .close => some { s with closed := true }
    | .getNext k => some (s.returned (recordStreamGetNext (readUpTo k) s.stream s.inFlight))
    | .getNextFails e => some (s.returned (recordStreamGetNext (readFails e) s.stream s.inFlight))

/-- `read` returns nothing only at the end of the stream. -/
def streamAllowed (s : Connection) : StreamAct → Prop
  | .getNext k => 0 < k ∧ (s.inFlight ≠ [] ∨ s.closed = true)
  | _ => True

instance (s : Connection) : (a : StreamAct) → Decidable (streamAllowed s a)
  | .send _ => inferInstanceAs (Decidable True)
  | .close => inferInstanceAs (Decidable True)
  | .getNext k => inferInstanceAs (Decidable (0 < k ∧ (s.inFlight ≠ [] ∨ s.closed = true)))
  | .getNextFails _ => inferInstanceAs (Decidable True)

/-- A new stream, before anything is sent. -/
def StreamStart (n : ℕ) (s : Connection) : Prop :=
  ∃ memory rs, recordStreamNew n memory = some rs ∧ s = ⟨rs, [], [], false, [], false, false⟩

/-- Nothing is lost, duplicated or reordered between `sent` and the records returned. -/
structure StreamInv (n : ℕ) (s : Connection) : Prop where
  wf : s.stream.WF
  len : s.stream.maxRecordLen = n
  small : n ≤ 0xffff
  conserved : s.sent = s.records.flatMap frame ++ (s.stream.pending ++ s.inFlight)
  fit : ∀ r ∈ s.records, r.length ≤ n
  ended : s.ended = true → s.closed = true ∧ s.inFlight = [] ∧ unframe s.stream.pending = none
  aborted : s.aborted = true →
    unframe s.stream.pending = none ∧ s.stream.pending.length = n + HEADER_SIZE

section Inv

variable {n : ℕ} {s s' : Connection}

theorem StreamInv.start (hs : StreamStart n s) : StreamInv n s := by
  obtain ⟨memory, rs, hnew, rfl⟩ := hs
  obtain ⟨hw, hp, hl, hn⟩ := recordStreamNew_spec hnew
  exact ⟨hw, hl, hn, by simp [hp], by simp, by simp, by simp⟩

/-- A record that was pending fits into the buffer. -/
theorem StreamInv.record_le {r rest : List UInt8} {p : List UInt8} (h : unframe p = some (r, rest))
    (hp : p.length ≤ n + HEADER_SIZE) : r.length ≤ n := by
  have hl := congrArg List.length (frame_of_unframe h).1
  rw [List.length_append, length_frame] at hl
  omega

/-- **One call keeps the invariant**, for every `read` that takes its bytes off the front of what is in
flight and returns none only at the end. -/
theorem StreamInv.call {read : List UInt8 → ℕ → ReadResult × List UInt8} (hi : StreamInv n s)
    (hread : ∀ w k bs w', read w k = (.bytes bs, w') → bs.length ≤ k ∧ w = bs ++ w')
    (herr : ∀ w k e w', read w k = (.error e, w') → w' = w)
    (hend : ∀ k w', 0 < k → read s.inFlight k = (.bytes [], w') → s.inFlight = [] ∧ s.closed = true) :
    StreamInv n (s.returned (recordStreamGetNext read s.stream s.inFlight)) := by
  obtain ⟨hn, hw', hm⟩ :=
    getNext_next (fun w k bs w' h => (hread w k bs w' h).1) hi.wf s.inFlight
  have hle := hi.wf.length_pending_le
  rw [bufferEnd, hi.len] at hle
  rw [hi.len] at hn hm
  generalize recordStreamGetNext read s.stream s.inFlight = res at *
  obtain ⟨o, rs', w'⟩ := res
  dsimp only at hn hw' hm
  generalize hp : rs'.pending = p' at hn
  cases hn with
  | @buffered r rest hu =>
    have hf := (frame_of_unframe hu).1
    refine ⟨hw', hm, hi.small, ?_, ?_, ?_, ?_⟩
    · simp [Connection.returned, hi.conserved, hp, hf]
    · intro r' hr'
      rcases List.mem_append.mp hr' with hr' | hr'
      · exact hi.fit r' hr'
      · obtain rfl := List.mem_singleton.mp hr'
        exact StreamInv.record_le hu hle
    · intro he
      have hnone := (hi.ended (by simpa [Connection.returned] using he)).2.2
      rw [hu] at hnone
      cases hnone
    · simp [Connection.returned]
  | full hu hf =>
    refine ⟨hw', hm, hi.small, ?_, hi.fit, ?_, ?_⟩
    · simp [Connection.returned, hi.conserved, hp]
    · intro he
      have := hi.ended (by simpa [Connection.returned] using he)
      simpa [Connection.returned, hp] using this
    · intro _
      simpa [Connection.returned, hp] using ⟨hu, hf⟩
  | @error e w' hu hr =>
    obtain rfl := herr _ _ _ _ hr
    refine ⟨hw', hm, hi.small, ?_, hi.fit, ?_, ?_⟩
    · simp [Connection.returned, hi.conserved, hp]
    · intro he
      have := hi.ended (by simpa [Connection.returned] using he)
      simpa [Connection.returned, hp] using this
    · simp [Connection.returned]
  | ended hu hr hf =>
    have hcons := (hread _ _ _ _ hr).2
    obtain ⟨h0, hc⟩ := hend _ _ (by omega) hr
    have hw0 : w' = [] := by
      rw [h0] at hcons
      exact hcons.symm
    refine ⟨hw', hm, hi.small, ?_, hi.fit, ?_, ?_⟩
    · simp [Connection.returned, hi.conserved, hp, h0, hw0]
    · intro _
      simpa [Connection.returned, hp] using ⟨hc, hw0, hu⟩
    · simp [Connection.returned]
  | @short bs w' hu hne hr hb =>
    have hcons := (hread _ _ _ _ hr).2
    refine ⟨hw', hm, hi.small, ?_, hi.fit, ?_, ?_⟩
    · simp [Connection.returned, hi.conserved, hp, hcons]
    · intro he
      have h0 := (hi.ended (by simpa [Connection.returned] using he)).2.1
      rw [h0] at hcons
      exact absurd (List.append_eq_nil_iff.mp hcons.symm).1 hne
    · simp [Connection.returned]
  | @arrived bs r _ w' hu hne hr hb =>
    obtain ⟨hbs, hcons⟩ := hread _ _ _ _ hr
    have hf := (frame_of_unframe hb).1
    refine ⟨hw', hm, hi.small, ?_, ?_, ?_, ?_⟩
    · have : s.stream.pending ++ s.inFlight = frame r ++ (p' ++ w') := by
        rw [hcons, ← List.append_assoc, hf, List.append_assoc]
      simp [Connection.returned, hi.conserved, hp, this]
    · intro r' hr'
      rcases List.mem_append.mp hr' with hr' | hr'
      · exact hi.fit r' hr'
      · obtain rfl := List.mem_singleton.mp hr'
        refine StreamInv.record_le hb ?_
        rw [List.length_append]
        omega
    · intro he
      have h0 := (hi.ended (by simpa [Connection.returned] using he)).2.1
      rw [h0] at hcons
      exact absurd (List.append_eq_nil_iff.mp hcons.symm).1 hne
    · simp [Connection.returned]

theorem readUpTo_spec {k m : ℕ} {w bs w' : List UInt8} (h : readUpTo k w m = (.bytes bs, w')) :
    bs.length ≤ m ∧ w = bs ++ w' := by
  obtain ⟨hb, rfl⟩ := Prod.mk.inj h
  obtain rfl := ReadResult.bytes.inj hb
  refine ⟨?_, (List.take_append_drop _ w).symm⟩
  rw [List.length_take]
  omega

theorem readUpTo_nil {k m : ℕ} {w w' : List UInt8} (hk : 0 < k) (hm : 0 < m)
    (h : readUpTo k w m = (.bytes [], w')) : w = [] := by
  obtain ⟨hb, -⟩ := Prod.mk.inj h
  have hl := congrArg List.length (ReadResult.bytes.inj hb)
  rw [List.length_take, List.length_nil] at hl
  exact List.eq_nil_of_length_eq_zero (by omega)

theorem StreamInv.step {a : StreamAct} (hi : StreamInv n s) (ha : streamAllowed s a)
    (hs : streamStep s a = some s') : StreamInv n s' := by
  unfold streamStep at hs
  obtain ⟨-, hs⟩ := Option.ite_none_left_eq_some.mp hs
  cases a with
  | send bs =>
    obtain ⟨hc, he⟩ := Option.ite_none_left_eq_some.mp hs
    obtain rfl := Option.some.inj he
    refine ⟨hi.wf, hi.len, hi.small, ?_, hi.fit, ?_, hi.aborted⟩
    · simp [hi.conserved]
    · intro he
      exact absurd (hi.ended he).1 hc
  | close =>
    obtain rfl := Option.some.inj hs
    exact ⟨hi.wf, hi.len, hi.small, hi.conserved, hi.fit, fun he => ⟨rfl, (hi.ended he).2⟩, hi.aborted⟩
  | getNext k =>
    obtain rfl := Option.some.inj hs
    obtain ⟨hk, hne⟩ := ha
    refine hi.call (fun w m bs w' h => readUpTo_spec h) (by simp [readUpTo]) ?_
    intro m w' hm hr
    have h0 := readUpTo_nil hk hm hr
    exact ⟨h0, hne.resolve_left (not_not.mpr h0)⟩
  | getNextFails e =>
    obtain rfl := Option.some.inj hs
    refine hi.call (by simp [readFails]) ?_ (by simp [readFails])
    intro w m e' w' h
    exact (Prod.mk.inj h).2.symm

theorem streamInv_of_reach (hr : Reach streamStep streamAllowed (StreamStart n) s) : StreamInv n s :=
  hr.invariant (fun _ => StreamInv.start) fun _ _ _ _ hi ha hs => hi.step ha hs

theorem StreamInv.in_order {ms : List (List UInt8)} (hi : StreamInv n s)
    (hm : ∀ m ∈ ms, m.length < 2 ^ 32) (hs : s.sent <+: ms.flatMap frame) :
    s.records <+: ms ∧ (∀ r ∈ s.records, r.length ≤ n) ∧
      (s.ended = true → s.sent = ms.flatMap frame → s.records = ms) ∧
      (s.aborted = true → ∃ m, s.records ++ [m] <+: ms ∧ n < m.length) := by
  have hshort : ∀ r ∈ s.records, r.length < 2 ^ 32 := by
    intro r hr
    have := hi.fit r hr
    have := hi.small
    omega
  rw [hi.conserved] at hs
  obtain ⟨ms', rfl, ht⟩ := frames_prefix hshort hm hs
  refine ⟨List.prefix_append _ _, hi.fit, ?_, ?_⟩
  · intro he hall
    obtain ⟨-, h0, hu⟩ := hi.ended he
    rw [hi.conserved, List.flatMap_append, h0, List.append_nil] at hall
    have hp := List.append_cancel_left hall
    cases ms' with
    | nil => simp
    | cons m ms' =>
      rw [hp, List.flatMap_cons, unframe_frame (hm m (by simp))] at hu
      cases hu
  · intro hab
    obtain ⟨hu, hfull⟩ := hi.aborted hab
    obtain ⟨z, hz⟩ := ht
    cases ms' with
    | nil =>
      have hl := congrArg List.length hz
      simp [hfull] at hl
    | cons m ms' =>
      refine ⟨m, ⟨ms', by simp⟩, ?_⟩
      -- the header of `m` has arrived, and with it all that fits into the buffer
      rw [List.flatMap_cons, List.append_assoc] at hz
      have htake : s.stream.pending.take HEADER_SIZE =
          (frame m ++ ms'.flatMap frame).take HEADER_SIZE := by
        rw [← hz, List.take_append_of_le_length (by omega)]
      by_contra hle
      unfold unframe at hu
      rw [htake, ntohl_frame (hm m (by simp)), if_neg (by omega)] at hu
      cases hu

/-- **No record is lost, duplicated, reordered or cut**, however the bytes arrive: the records returned
are the first ones sent, all of them at the end of the stream, and the call that stops at the assertion
has a longer record than the stream was made for in front of it. -/
theorem records_in_order {ms : List (List UInt8)}
    (hr : Reach streamStep streamAllowed (StreamStart n) s) (hm : ∀ m ∈ ms, m.length < 2 ^ 32)
    (hs : s.sent <+: ms.flatMap frame) :
    s.records <+: ms ∧ (∀ r ∈ s.records, r.length ≤ n) ∧
      (s.ended = true → s.sent = ms.flatMap frame → s.records = ms) ∧
      (s.aborted = true → ∃ m, s.records ++ [m] <+: ms ∧ n < m.length) :=
  (streamInv_of_reach hr).in_order hm hs

/-- The start of a stream for records of up to `n` bytes, in memory that is all zero. -/
def zeroStart (n : ℕ) : Connection :=
  ⟨⟨n, (List.range (n + HEADER_SIZE)).map fun _ => 0, 0, 0⟩, [], [], false, [], false, false⟩

theorem zeroStart_start {n : ℕ} (hn : n ≤ 0xffff) : StreamStart n (zeroStart n) :=
  ⟨fun _ => 0, _, if_pos hn, rfl⟩

/-- Two records that arrive three bytes at a time. -/
theorem records_in_order_pieces :
    ∃ s, Reach streamStep streamAllowed (StreamStart 3) s ∧ s.ended = true ∧
      s.records = [[1, 2], [7, 8, 9]] := by
  have he : (exec streamStep streamAllowed (zeroStart 3) [.send (frame [1, 2]), .getNext 3,
      .send (frame [7, 8, 9]), .close, .getNext 3, .getNext 3, .getNextFails 4, .getNext 3, .getNext 3,
      .getNext 3]).map (fun s => (s.sent, s.ended)) =
        some ([[1, 2], [7, 8, 9]].flatMap frame, true) := by decide +kernel
  obtain ⟨s, hr, hs⟩ := Reach.of_exec (zeroStart_start (by decide)) he
  obtain ⟨hsent, hend⟩ := Prod.mk.inj hs
  have hsub : s.sent <+: [[1, 2], [7, 8, 9]].flatMap frame := hsent ▸ List.prefix_rfl
  have horder := records_in_order hr (by decide) hsub
  exact ⟨s, hr, hend, horder.2.2.1 hend hsent⟩

/-- What is left to do: records to return, and bytes to read. -/
def Connection.remaining (s : Connection) (ms : List (List UInt8)) : ℕ :=
  ms.length - s.records.length + s.inFlight.length

/-- **A call makes progress**: it ends the stream, or a record or a byte less remains. -/
theorem StreamInv.getNext_progress {ms : List (List UInt8)} {k : ℕ} (hi : StreamInv n s) (hk : 0 < k)
    (hc : s.closed = true) (hab : s.aborted = false) (hsent : s.sent = ms.flatMap frame)
    (hm : ∀ m ∈ ms, m.length ≤ n) :
    ∃ s', streamStep s (.getNext k) = some s' ∧ StreamInv n s' ∧ s'.closed = true ∧
      s'.aborted = false ∧ s'.sent = s.sent ∧ (s.ended = true → s'.ended = true) ∧
      (s'.ended = true ∨ s'.remaining ms < s.remaining ms) := by
  have hstep : streamStep s (.getNext k) =
      some (s.returned (recordStreamGetNext (readUpTo k) s.stream s.inFlight)) := by
    simp [streamStep, hab]
  have hi' := hi.step (a := .getNext k) ⟨hk, Or.inr hc⟩ hstep
  have hm' : ∀ m ∈ ms, m.length < 2 ^ 32 := by
    intro m hmem
    have := hm m hmem
    have := hi.small
    omega
  obtain ⟨hpre, -, -, hfull⟩ := hi'.in_order hm' (hsent ▸ List.prefix_rfl)
  have hab' : (s.returned (recordStreamGetNext (readUpTo k) s.stream s.inFlight)).aborted = false := by
    by_contra hne
    obtain ⟨m, hpm, hlt⟩ := hfull (Bool.not_eq_false _ ▸ hne)
    have := hm m (hpm.subset (by simp))
    omega
  refine ⟨_, hstep, hi', hc, hab', rfl, by intro he; simp [Connection.returned, he], ?_⟩
  have hread : ∀ w m bs w', readUpTo k w m = (.bytes bs, w') → bs.length ≤ m := by
    intro w m bs w' h
    exact (readUpTo_spec h).1
  have hn := (getNext_next hread hi.wf s.inFlight).1
  generalize recordStreamGetNext (readUpTo k) s.stream s.inFlight = res at *
  obtain ⟨o, rs', w'⟩ := res
  dsimp only at hn
  generalize rs'.pending = p' at hn
  have hlen := hpre.length_le
  unfold Connection.remaining
  cases hn with
  | buffered hu =>
    right
    simp only [Connection.returned, List.length_append, List.length_singleton] at hlen ⊢
    omega
  | full hu hf => simp [Connection.returned] at hab'
  | error hu hr => simp [readUpTo] at hr
  | ended hu hr hf => simp [Connection.returned]
  | short hu hne hr hb =>
    right
    have hcons := congrArg List.length (readUpTo_spec hr).2
    have hpos := List.length_pos_of_ne_nil hne
    rw [List.length_append] at hcons
    simp only [Connection.returned]
    omega
  | arrived hu hne hr hb =>
    right
    have hcons := congrArg List.length (readUpTo_spec hr).2
    rw [List.length_append] at hcons
    simp only [Connection.returned, List.length_append, List.length_singleton] at hlen ⊢
    omega

theorem StreamInv.drain {ms : List (List UInt8)} {ks : List ℕ} (hi : StreamInv n s)
    (hks : ∀ k ∈ ks, 0 < k) (hc : s.closed = true) (hab : s.aborted = false)
    (hsent : s.sent = ms.flatMap frame) (hm : ∀ m ∈ ms, m.length ≤ n)
    (hlen : s.ended = true ∨ s.remaining ms < ks.length) :
    ∃ s', exec streamStep streamAllowed s (ks.map .getNext) = some s' ∧ StreamInv n s' ∧
      s'.ended = true ∧ s'.sent = s.sent := by
  induction ks generalizing s with
  | nil => exact ⟨s, rfl, hi, hlen.resolve_right (by simp), rfl⟩
  | cons k ks ih =>
    obtain ⟨s₁, hs₁, hi₁, hc₁, hab₁, hsent₁, hend, hless⟩ :=
      hi.getNext_progress (hks k (by simp)) hc hab hsent hm
    have hlen₁ : s₁.ended = true ∨ s₁.remaining ms < ks.length := by
      rcases hlen with he | hl
      · exact Or.inl (hend he)
      · rw [List.length_cons] at hl
        exact hless.imp_right (by omega)
    obtain ⟨s', hx, hi', he', hs'⟩ := ih hi₁ (fun k hk => hks k (List.mem_cons_of_mem _ hk)) hc₁ hab₁
      (hsent₁.trans hsent) hlen₁
    refine ⟨s', ?_, hi', he', hs'.trans hsent₁⟩
    rw [List.map_cons, exec, if_pos ⟨hks k (by simp), Or.inr hc⟩, hs₁]
    exact hx

/-- **Every record is returned in the end**: once the other end has closed, as many calls as there are
records and bytes in flight, and one more, return them all and then the end of the stream, however
`read` cuts the bytes. -/
theorem records_all_returned {ms : List (List UInt8)} {ks : List ℕ}
    (hr : Reach streamStep streamAllowed (StreamStart n) s) (hc : s.closed = true)
    (hsent : s.sent = ms.flatMap frame) (hm : ∀ m ∈ ms, m.length ≤ n) (hks : ∀ k ∈ ks, 0 < k)
    (hlen : ms.length + s.inFlight.length < ks.length) :
    ∃ s', exec streamStep streamAllowed s (ks.map .getNext) = some s' ∧ s'.records = ms ∧
      s'.ended = true := by
  have hi := streamInv_of_reach hr
  have hm' : ∀ m ∈ ms, m.length < 2 ^ 32 := by
    intro m hmem
    have := hm m hmem
    have := hi.small
    omega
  have hab : s.aborted = false := by
    by_contra hne
    obtain ⟨m, hpm, hlt⟩ := (hi.in_order hm' (hsent ▸ List.prefix_rfl)).2.2.2
      (Bool.not_eq_false _ ▸ hne)
    have := hm m (hpm.subset (by simp))
    omega
  obtain ⟨s', hx, hi', he, hs'⟩ := hi.drain hks hc hab hsent hm
    (Or.inr (by unfold Connection.remaining; omega))
  have hall := hs'.trans hsent
  exact ⟨s', hx, (hi'.in_order hm' (hall ▸ List.prefix_rfl)).2.2.1 he hall, he⟩

/-- The same bytes, read one at a time. -/
theorem records_all_returned_bytewise :
    ∃ s s', Reach streamStep streamAllowed (StreamStart 3) s ∧
      exec streamStep streamAllowed s ((List.replicate 16 1).map .getNext) = some s' ∧
      s'.records = [[1, 2], [7, 8, 9]] ∧ s'.ended = true := by
  have he : (exec streamStep streamAllowed (zeroStart 3)
      [.send (frame [1, 2]), .send (frame [7, 8, 9]), .close]).map
        (fun s => (s.sent, s.closed, s.inFlight.length)) =
          some ([[1, 2], [7, 8, 9]].flatMap frame, true, 13) := by decide +kernel
  obtain ⟨s, hr, hs⟩ := Reach.of_exec (zeroStart_start (by decide)) he
  obtain ⟨hsent, hs⟩ := Prod.mk.inj hs
  obtain ⟨hc, hl⟩ := Prod.mk.inj hs
  have hks : ∀ k ∈ List.replicate 16 1, 0 < k := by simp
  obtain ⟨s', h⟩ := records_all_returned hr hc hsent (by decide) hks
    (by rw [hl]; decide)
  exact ⟨s, s', hr, h⟩

end Inv

end Cutils

end IntelCamera
