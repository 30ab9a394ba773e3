import IntelCamera.Lib.Memory

/-!
# FaceDatabase.Code — the external face database of the face recognition filter

The filter keeps an array of `pvl_face_recognition_facedata` records.  Each record has fields and a
`data` pointer to its payload; `initExternalDB` takes one block for all the payloads and points the
record `i` to the slice `i` of it.  `loadExternalDB` clears the records, reads the file over them,
pointers included, and registers them with the library one by one.

Both work on a flat memory, so that a pointer is what its eight bytes say, and a write through a
pointer goes where the pointer points.  The layout of the record and the outcome of
`pvl_face_recognition_register_facedata` belong to the library and are parameters; its internal
database is the list of the faces registered since `pvl_face_recognition_reset`.

The region of a record is the record and its slice.  The regions are disjoint, and each operation
below stays in the region of its record as long as the pointer is the right one.
-/

namespace IntelCamera

open Lib

namespace FaceDatabase

/-! ### The code -/

/-- The layout of `pvl_face_recognition_facedata`, and the two fields of `pvl_face_recognition` that
size the database. -/
structure Config where
  structSize : ℕ
  dataOffset : ℕ
  fits : dataOffset + 8 ≤ structSize
  maxFacesInDatabase : ℕ
  facedataSize : ℕ

/-- A record as the library sees it: its bytes, and the bytes its pointer points to. -/
structure Face where
  fields : List UInt8
  payload : List UInt8
deriving DecidableEq, Repr

/-- The memory and the internal database of the library. -/
structure State where
  mem : Mem UInt8
  internal : List Face

/-- `memset (p, 0, n)` writes these. -/
def zeros (n : ℕ) : List UInt8 := List.replicate n 0

section Code

variable (C : Config) (facedata : ℕ)

/-- `&facedata[i]` -/
def record (i : ℕ) : ℕ := facedata + i * C.structSize

/-- `facedata[i].data` -/
def data (m : Mem UInt8) (i : ℕ) : ℕ := leNat (m.read (record C facedata i + C.dataOffset) 8)

/-- `facedata[i].data = ptr` -/
def setData (m : Mem UInt8) (i ptr : ℕ) : Mem UInt8 :=
  m.write (record C facedata i + C.dataOffset) (leBytes 8 ptr)

/-- The record `i`, as it is. -/
def face (m : Mem UInt8) (i : ℕ) : Face :=
  ⟨m.read (record C facedata i) C.structSize, m.read (data C facedata m i) C.facedataSize⟩

/-- `initExternalDB` -/
def initExternalDB (malloc : ℕ → Option ℕ) (m : Mem UInt8) : Bool × Mem UInt8 :=
  let m := m.write facedata (zeros (C.maxFacesInDatabase * C.structSize))
  match malloc (C.maxFacesInDatabase * C.facedataSize) with
  | none => (false, setData C facedata m 0 0)
  | some block =>
    let m := setData C facedata m 0 block
    let m := m.write (data C facedata m 0) (zeros (C.maxFacesInDatabase * C.facedataSize))
    (true, (List.range' 1 (C.maxFacesInDatabase - 1)).foldl
      (fun m i => setData C facedata m i (data C facedata m (i - 1) + C.facedataSize)) m)

/-- The first loop of `loadExternalDB`: the record `i` is zeroed, its pointer kept, and so is what it
points to. -/
def clearRecord (m : Mem UInt8) (i : ℕ) : Mem UInt8 :=
  let ptrBk := data C facedata m i
  let m := m.write (record C facedata i) (zeros C.structSize)
  let m := setData C facedata m i ptrBk
  m.write (data C facedata m i) (zeros C.facedataSize)

/-- The reads of the second loop, `fread` taking what is left of the file.  An error is one of the two
early returns, with the memory as it is then. -/
def readRecord (i : ℕ) (file : List UInt8) (m : Mem UInt8) :
    Except (Mem UInt8) (Mem UInt8 × List UInt8) :=
  let payload := file.take C.facedataSize
  let m := m.write (data C facedata m i) payload
  if payload.length ≠ C.facedataSize then .error m
  else
    let ptrBk := data C facedata m i
    let file := file.drop C.facedataSize
    let fields := file.take C.structSize
    let m := m.write (record C facedata i) fields
    if fields.length ≠ C.structSize then .error m
    else .ok (setData C facedata m i ptrBk, file.drop C.structSize)

/-- The second loop, for the `n` records from `i` on.  `register i` is the outcome for the record `i`;
a record that is not registered ends the loop, and counts. -/
def loadRecords (register : ℕ → Bool) (i : ℕ) : ℕ → List UInt8 → State → Option ℕ × State
  | 0, _, s => (some i, s)
  | n + 1, file, s =>
    match readRecord C facedata i file s.mem with
    | .error m => (none, { s with mem := m })
    | .ok (m, file) =>
      if register i then
        loadRecords register (i + 1) n file ⟨m, s.internal ++ [face C facedata m i]⟩
      else (some (i + 1), { s with mem := m })

/-- The `int` at the start of the file. -/
def numRegistered (file : List UInt8) : ℤ := (BitVec.ofNat 32 (leNat (file.take 4))).toInt

/-- `loadExternalDB`: `none` for `FALSE`, else the number for `facedata_cnt`.  `file` is what `fopen`
finds. -/
def loadExternalDB (file : Option (List UInt8)) (register : ℕ → Bool) (s : State) :
    Option ℕ × State :=
  if facedata = 0 then (none, s)
  else
    match file with
    | none => (none, s)
    | some file =>
      let m := (List.range C.maxFacesInDatabase).foldl (clearRecord C facedata) s.mem
      if file.length < 4 then (none, { s with mem := m })
      else if numRegistered file < 0 ∨ C.maxFacesInDatabase < numRegistered file then
        (none, { s with mem := m })
      else loadRecords C facedata register 0 (numRegistered file).toNat (file.drop 4) ⟨m, []⟩

end Code

/-! ### Records and their slices -/

section Slices

variable (C : Config) (facedata b : ℕ)

/-- The array and the block of the payloads do not meet, and the block lies in the address space: what
`malloc` promises. -/
structure Placed : Prop where
  disjoint : Disjoint (Set.Ico facedata (facedata + C.maxFacesInDatabase * C.structSize))
    (Set.Ico b (b + C.maxFacesInDatabase * C.facedataSize))
  bound : b + C.maxFacesInDatabase * C.facedataSize < 2 ^ 64

/-- The pointer of the record `i`. -/
def pointer (i : ℕ) : ℕ := b + i * C.facedataSize

/-- Every record points to its own slice of the block. -/
def Owned (m : Mem UInt8) : Prop :=
  ∀ i < C.maxFacesInDatabase, data C facedata m i = pointer C b i

/-- The record `i` and its slice. -/
def region (i : ℕ) : Set ℕ := slot facedata C.structSize i ∪ slot b C.facedataSize i

/-- The bytes of the slice `i`. -/
def payloadAt (m : Mem UInt8) (i : ℕ) : List UInt8 := m.read (pointer C b i) C.facedataSize

/-- The bytes of the record `i`. -/
def fieldsAt (m : Mem UInt8) (i : ℕ) : List UInt8 := m.read (record C facedata i) C.structSize

/-- A record with the pointer it has to have. -/
def ownedFace (i : ℕ) (fields payload : List UInt8) : Face :=
  ⟨memcpy fields C.dataOffset (leBytes 8 (pointer C b i)), payload⟩

/-- From `m` to `m'` the record `i` became `f`, pointing to its slice, and nothing else changed. -/
structure Rewritten (i : ℕ) (m m' : Mem UInt8) (f : Face) : Prop where
  frame : Set.EqOn m' m (region C facedata b i)ᶜ
  data : data C facedata m' i = pointer C b i
  fields : fieldsAt C facedata m' i = f.fields
  payload : payloadAt C b m' i = f.payload

variable {C facedata b} {m m' : Mem UInt8} {i j : ℕ}

theorem data_eq (m : Mem UInt8) (i : ℕ) :
    data C facedata m i = leNat (slice (fieldsAt C facedata m i) C.dataOffset 8) := by
  unfold data fieldsAt
  rw [Mem.slice_read _ _ C.fits]

variable (C facedata) in
theorem slice_fieldsAt (m : Mem UInt8) (i : ℕ) :
    slice (fieldsAt C facedata m i) C.dataOffset 8 = leBytes 8 (data C facedata m i) := by
  have hlen : (slice (fieldsAt C facedata m i) C.dataOffset 8).length = 8 := by
    refine length_slice ?_
    unfold fieldsAt
    rw [Mem.length_read]
    exact C.fits
  have hb := leBytes_leNat (slice (fieldsAt C facedata m i) C.dataOffset 8)
  rw [hlen] at hb
  rw [data_eq, hb]

theorem face_eq (h : data C facedata m i = pointer C b i) :
    face C facedata m i = ⟨fieldsAt C facedata m i, payloadAt C b m i⟩ := by
  unfold face
  rw [h]
  rfl

section Frames

variable (hp : Placed C facedata b)

include hp

theorem slots_disjoint (hi : i < C.maxFacesInDatabase) (hj : j < C.maxFacesInDatabase) :
    Disjoint (slot facedata C.structSize i) (slot b C.facedataSize j) :=
  hp.disjoint.mono (slot_subset facedata C.structSize hi) (slot_subset b C.facedataSize hj)

theorem region_disjoint (hi : i < C.maxFacesInDatabase) (hj : j < C.maxFacesInDatabase) (h : i ≠ j) :
    Disjoint (region C facedata b i) (region C facedata b j) := by
  unfold region
  rw [Set.disjoint_union_left, Set.disjoint_union_right, Set.disjoint_union_right]
  exact ⟨⟨slot_disjoint facedata C.structSize h, slots_disjoint hp hi hj⟩,
    (slots_disjoint hp hj hi).symm, slot_disjoint b C.facedataSize h⟩

/-- What happens to the record `i` and its slice leaves the other records and slices alone. -/
theorem fieldsAt_of_eqOn (h : Set.EqOn m' m (region C facedata b i)ᶜ) (hi : i < C.maxFacesInDatabase)
    (hj : j < C.maxFacesInDatabase) (hij : i ≠ j) :
    fieldsAt C facedata m' j = fieldsAt C facedata m j ∧ payloadAt C b m' j = payloadAt C b m j := by
  have hdisj := (region_disjoint hp hi hj hij).symm.subset_compl_right
  exact ⟨Mem.read_eqOn h (Set.subset_union_left.trans hdisj),
    Mem.read_eqOn h (Set.subset_union_right.trans hdisj)⟩

/-- A write into the slice `i`. -/
theorem write_payload (m : Mem UInt8) (src : List UInt8) (hi : i < C.maxFacesInDatabase)
    (hsrc : src.length ≤ C.facedataSize) :
    Set.EqOn (m.write (pointer C b i) src) m (region C facedata b i)ᶜ ∧
      fieldsAt C facedata (m.write (pointer C b i) src) i = fieldsAt C facedata m i ∧
      payloadAt C b (m.write (pointer C b i) src) i = memcpy (payloadAt C b m i) 0 src := by
  have hsub : Set.Ico (pointer C b i) (pointer C b i + src.length) ⊆ slot b C.facedataSize i :=
    Set.Ico_subset_Ico_right (by unfold pointer; omega)
  have hslot : Set.EqOn (m.write (pointer C b i) src) m (slot b C.facedataSize i)ᶜ :=
    (Mem.write_eqOn m _ src).mono (Set.compl_subset_compl.mpr hsub)
  refine ⟨hslot.mono (Set.compl_subset_compl.mpr Set.subset_union_right),
    Mem.read_eqOn hslot (slots_disjoint hp hi hi).subset_compl_right, ?_⟩
  have hw : (m.write (pointer C b i + 0) src).read (pointer C b i) C.facedataSize =
      memcpy (m.read (pointer C b i) C.facedataSize) 0 src := Mem.read_write (by omega)
  rwa [Nat.add_zero] at hw

/-- A write into the record `i`. -/
theorem write_record (m : Mem UInt8) (o : ℕ) (src : List UInt8) (hi : i < C.maxFacesInDatabase)
    (hsrc : o + src.length ≤ C.structSize) :
    Set.EqOn (m.write (record C facedata i + o) src) m (region C facedata b i)ᶜ ∧
      fieldsAt C facedata (m.write (record C facedata i + o) src) i =
        memcpy (fieldsAt C facedata m i) o src ∧
      payloadAt C b (m.write (record C facedata i + o) src) i = payloadAt C b m i := by
  have hsub : Set.Ico (record C facedata i + o) (record C facedata i + o + src.length) ⊆
      slot facedata C.structSize i :=
    Set.Ico_subset_Ico (by unfold record; omega) (by unfold record; omega)
  have hslot : Set.EqOn (m.write (record C facedata i + o) src) m (slot facedata C.structSize i)ᶜ :=
    (Mem.write_eqOn m _ src).mono (Set.compl_subset_compl.mpr hsub)
  exact ⟨hslot.mono (Set.compl_subset_compl.mpr Set.subset_union_left), Mem.read_write hsrc,
    Mem.read_eqOn hslot (slots_disjoint hp hi hi).symm.subset_compl_right⟩

theorem pointer_lt (hi : i < C.maxFacesInDatabase) : pointer C b i < 256 ^ 8 := by
  have h1 := hp.bound
  have h2 : i * C.facedataSize ≤ C.maxFacesInDatabase * C.facedataSize :=
    Nat.mul_le_mul_right _ hi.le
  unfold pointer
  norm_num at h1 ⊢
  omega

/-! ### One record -/

theorem setData_spec (m : Mem UInt8) (hi : i < C.maxFacesInDatabase) :
    Set.EqOn (setData C facedata m i (pointer C b i)) m (region C facedata b i)ᶜ ∧
      data C facedata (setData C facedata m i (pointer C b i)) i = pointer C b i ∧
      fieldsAt C facedata (setData C facedata m i (pointer C b i)) i =
        memcpy (fieldsAt C facedata m i) C.dataOffset (leBytes 8 (pointer C b i)) ∧
      payloadAt C b (setData C facedata m i (pointer C b i)) i = payloadAt C b m i := by
  have hfits := C.fits
  obtain ⟨h1, h2, h3⟩ := write_record hp m C.dataOffset (leBytes 8 (pointer C b i)) hi
    (by rw [length_leBytes]; exact hfits)
  refine ⟨h1, ?_, h2, h3⟩
  have hs : slice (memcpy (fieldsAt C facedata m i) C.dataOffset (leBytes 8 (pointer C b i)))
      C.dataOffset 8 = leBytes 8 (pointer C b i) := by
    have hself : slice (memcpy (fieldsAt C facedata m i) C.dataOffset (leBytes 8 (pointer C b i)))
        C.dataOffset (leBytes 8 (pointer C b i)).length = leBytes 8 (pointer C b i) :=
      slice_memcpy_self (by unfold fieldsAt; rw [Mem.length_read]; omega)
    rwa [length_leBytes] at hself
  unfold setData
  rw [data_eq, h2, hs]
  exact leNat_leBytes (pointer_lt hp hi)

/-- **A cleared record** is zero but for its pointer, and so is its slice. -/
theorem clearRecord_spec (hi : i < C.maxFacesInDatabase)
    (h : data C facedata m i = pointer C b i) :
    Rewritten C facedata b i m (clearRecord C facedata m i)
      (ownedFace C b i (zeros C.structSize) (zeros C.facedataSize)) := by
  have hz : ∀ n, (zeros n).length = n := fun n => List.length_replicate
  obtain ⟨f1, h1, p1⟩ := write_record hp m 0 (zeros C.structSize) hi
    (by rw [hz, Nat.zero_add])
  obtain ⟨f2, d2, h2, p2⟩ := setData_spec hp (m.write (record C facedata i + 0) (zeros C.structSize)) hi
  obtain ⟨f3, h3, p3⟩ := write_payload hp (setData C facedata
    (m.write (record C facedata i + 0) (zeros C.structSize)) i (pointer C b i))
    (zeros C.facedataSize) hi (by rw [hz])
  unfold clearRecord
  dsimp only
  rw [h]
  rw [Nat.add_zero] at f1 h1 f2 d2 h2 f3 h3 p3
  rw [d2]
  refine ⟨f3.trans (f2.trans f1), ?_, ?_, ?_⟩
  · rw [data_eq, h3, ← data_eq, d2]
  · rw [h3, h2, h1, memcpy_all (by unfold fieldsAt; rw [Mem.length_read, hz])]
    rfl
  · rw [p3, memcpy_all (by unfold payloadAt; rw [Mem.length_read, hz])]
    rfl

/-- **A record that is there** in full is read, and its pointer restored. -/
theorem readRecord_ok (file : List UInt8) (hi : i < C.maxFacesInDatabase)
    (h : data C facedata m i = pointer C b i) (hlen : C.facedataSize + C.structSize ≤ file.length) :
    ∃ m', readRecord C facedata i file m = .ok (m', file.drop (C.facedataSize + C.structSize)) ∧
      Rewritten C facedata b i m m'
        (ownedFace C b i (slice file C.facedataSize C.structSize) (file.take C.facedataSize)) := by
  have hl1 : (file.take C.facedataSize).length = C.facedataSize := by
    rw [List.length_take]
    omega
  have hl2 : ((file.drop C.facedataSize).take C.structSize).length = C.structSize := by
    rw [List.length_take, List.length_drop]
    omega
  obtain ⟨f1, h1, p1⟩ := write_payload hp m (file.take C.facedataSize) hi hl1.le
  obtain ⟨f2, h2, p2⟩ := write_record hp (m.write (pointer C b i) (file.take C.facedataSize))
    0 ((file.drop C.facedataSize).take C.structSize) hi (by rw [hl2, Nat.zero_add])
  rw [Nat.add_zero] at f2 h2 p2
  obtain ⟨f3, d3, h3, p3⟩ := setData_spec hp ((m.write (pointer C b i)
    (file.take C.facedataSize)).write (record C facedata i)
    ((file.drop C.facedataSize).take C.structSize)) hi
  have d1 : data C facedata (m.write (pointer C b i) (file.take C.facedataSize)) i = pointer C b i := by
    rw [data_eq, h1, ← data_eq, h]
  refine ⟨_, ?_, f3.trans (f2.trans f1), d3, ?_, ?_⟩
  · unfold readRecord
    dsimp only
    rw [h, if_neg (not_not.mpr hl1), if_neg (not_not.mpr hl2), d1, List.drop_drop]
  · rw [h3, h2, memcpy_all (by unfold fieldsAt; rw [Mem.length_read, hl2])]
    rfl
  · rw [p3, p2, p1, memcpy_all (by unfold payloadAt; rw [Mem.length_read, hl1])]
    rfl

/-- **A record that is cut** goes as far as the file does, over the pointer too. -/
theorem readRecord_cut (file : List UInt8) (hi : i < C.maxFacesInDatabase)
    (h : data C facedata m i = pointer C b i) (hlen : file.length < C.facedataSize + C.structSize) :
    ∃ m', readRecord C facedata i file m = .error m' ∧
      Set.EqOn m' m (region C facedata b i)ᶜ ∧
      fieldsAt C facedata m' i = memcpy (fieldsAt C facedata m i) 0 (file.drop C.facedataSize) ∧
      payloadAt C b m' i = memcpy (payloadAt C b m i) 0 (file.take C.facedataSize) := by
  obtain ⟨f1, h1, p1⟩ := write_payload hp m (file.take C.facedataSize) hi
    (by rw [List.length_take]; omega)
  unfold readRecord
  dsimp only
  rw [h]
  by_cases hshort : (file.take C.facedataSize).length ≠ C.facedataSize
  · rw [if_pos hshort]
    refine ⟨_, rfl, f1, ?_, p1⟩
    have hnil : file.drop C.facedataSize = [] := by
      rw [List.length_take] at hshort
      exact List.drop_eq_nil_of_le (by omega)
    rw [h1, hnil, memcpy_nil]
  · have htake : (file.drop C.facedataSize).take C.structSize = file.drop C.facedataSize :=
      List.take_of_length_le (by rw [List.length_drop]; omega)
    have hl2 : (file.drop C.facedataSize).length < C.structSize := by
      rw [List.length_drop]
      rw [List.length_take] at hshort
      omega
    obtain ⟨f2, h2, p2⟩ := write_record hp (m.write (pointer C b i) (file.take C.facedataSize))
      0 (file.drop C.facedataSize) hi (by omega)
    rw [Nat.add_zero] at f2 h2 p2
    rw [if_neg hshort, htake, if_pos hl2.ne]
    exact ⟨_, rfl, f2.trans f1, by rw [h2, h1], by rw [p2, p1]⟩

/-- The other records and their slices keep what they have. -/
theorem others_keep (h : Set.EqOn m' m (region C facedata b i)ᶜ) (hi : i < C.maxFacesInDatabase)
    (hj : j < C.maxFacesInDatabase) (hij : i ≠ j) (hd : data C facedata m j = pointer C b j) :
    data C facedata m' j = pointer C b j ∧ face C facedata m' j = face C facedata m j := by
  obtain ⟨h1, h2⟩ := fieldsAt_of_eqOn hp h hi hj hij
  have hd' : data C facedata m' j = pointer C b j := by rw [data_eq, h1, ← data_eq, hd]
  exact ⟨hd', by rw [face_eq hd, face_eq hd', h1, h2]⟩

variable {f : Face}

omit hp in
theorem Rewritten.face (h : Rewritten C facedata b i m m' f) : face C facedata m' i = f := by
  rw [face_eq h.data, h.fields, h.payload]

theorem Rewritten.owned (h : Rewritten C facedata b i m m' f) (hi : i < C.maxFacesInDatabase)
    (ho : Owned C facedata b m) : Owned C facedata b m' := by
  intro j hj
  by_cases hij : i = j
  · subst hij
    exact h.data
  · exact (others_keep hp h.frame hi hj hij (ho j hj)).1

/-! ### The first loop, and `initExternalDB` -/

theorem clear_spec (ho : Owned C facedata b m) {k : ℕ} (hk : k ≤ C.maxFacesInDatabase) :
    Owned C facedata b ((List.range k).foldl (clearRecord C facedata) m) ∧
      ∀ i < k, face C facedata
        ((List.range k).foldl (clearRecord C facedata) m) i =
          ownedFace C b i (zeros C.structSize) (zeros C.facedataSize) := by
  induction k with
  | zero => exact ⟨ho, fun i hi => absurd hi (Nat.not_lt_zero i)⟩
  | succ k ih =>
    obtain ⟨hown, hz⟩ := ih (by omega)
    have hstep := clearRecord_spec hp (show k < C.maxFacesInDatabase by omega) (hown k (by omega))
    rw [List.range_succ, List.foldl_append, List.foldl_cons, List.foldl_nil]
    refine ⟨hstep.owned hp (by omega) hown, fun i hi => ?_⟩
    by_cases hik : k = i
    · subst hik
      exact hstep.face
    · rw [(others_keep hp hstep.frame (by omega) (by omega) hik (hown i (by omega))).2]
      exact hz i (by omega)

/-- The loop of `initExternalDB`: each pointer is the one before it and a slice more. -/
theorem chain_spec (h0 : data C facedata m 0 = pointer C b 0) {n : ℕ}
    (hn : n < C.maxFacesInDatabase) : ∀ j ≤ n, data C facedata ((List.range' 1 n).foldl (fun m i =>
      setData C facedata m i (data C facedata m (i - 1) + C.facedataSize)) m) j = pointer C b j := by
  induction n with
  | zero =>
    intro j hj
    obtain rfl : j = 0 := by omega
    exact h0
  | succ n ih =>
    intro j hj
    have ih := ih (by omega)
    rw [List.range'_1_concat, List.foldl_append, List.foldl_cons, List.foldl_nil]
    set m₁ := (List.range' 1 n).foldl (fun m i =>
      setData C facedata m i (data C facedata m (i - 1) + C.facedataSize)) m
    have hnext : data C facedata m₁ (1 + n - 1) + C.facedataSize = pointer C b (1 + n) := by
      rw [Nat.add_sub_cancel_left, ih n le_rfl]
      unfold pointer
      ring
    rw [hnext]
    obtain ⟨hframe, hdata, -, -⟩ := setData_spec hp m₁ (show 1 + n < C.maxFacesInDatabase by omega)
    by_cases hjn : 1 + n = j
    · subst hjn
      exact hdata
    · exact (others_keep hp hframe (by omega) (by omega) hjn (ih j (by omega))).1

/-- **`initExternalDB` gives every record its slice.** -/
theorem initExternalDB_owned {malloc : ℕ → Option ℕ}
    (hm : malloc (C.maxFacesInDatabase * C.facedataSize) = some b) (m : Mem UInt8) :
    Owned C facedata b (initExternalDB C facedata malloc m).2 := by
  unfold initExternalDB
  dsimp only
  rw [hm]
  dsimp only
  rcases Nat.eq_zero_or_pos C.maxFacesInDatabase with hz | hpos
  · intro i hi
    omega
  set m₁ := m.write facedata (zeros (C.maxFacesInDatabase * C.structSize))
  have hb : pointer C b 0 = b := by
    unfold pointer
    rw [Nat.zero_mul, Nat.add_zero]
  obtain ⟨-, d1, -, -⟩ := setData_spec hp m₁ hpos
  rw [hb] at d1
  rw [d1]
  -- the `memset` of the block leaves the array alone
  set m₂ := (setData C facedata m₁ 0 b).write b (zeros (C.maxFacesInDatabase * C.facedataSize))
  have hblock : Set.EqOn m₂ (setData C facedata m₁ 0 b)
      (Set.Ico b (b + C.maxFacesInDatabase * C.facedataSize))ᶜ := by
    have hw := Mem.write_eqOn (setData C facedata m₁ 0 b) b
      (zeros (C.maxFacesInDatabase * C.facedataSize))
    rwa [show (zeros (C.maxFacesInDatabase * C.facedataSize)).length =
      C.maxFacesInDatabase * C.facedataSize from List.length_replicate] at hw
  have d2 : data C facedata m₂ 0 = b := by
    have hf : fieldsAt C facedata m₂ 0 = fieldsAt C facedata (setData C facedata m₁ 0 b) 0 :=
      Mem.read_eqOn hblock ((slot_subset facedata C.structSize hpos).trans
        hp.disjoint.subset_compl_right)
    rw [data_eq, hf, ← data_eq, d1]
  have d2' : data C facedata m₂ 0 = pointer C b 0 := by rw [hb, d2]
  intro i hi
  exact chain_spec hp d2' (show C.maxFacesInDatabase - 1 < C.maxFacesInDatabase by omega) i (by omega)

end Frames

end Slices

end FaceDatabase

end IntelCamera
