import IntelCamera.Gralloc.Alloc
import IntelCamera.Lib.Bytes
import IntelCamera.Lib.Runs
import IntelCamera.Lib.Store

/-!
# Gralloc.GraphicBuffer — buffers that are sent to another process (`GraphicBuffer.cpp`)

`flatten` writes the geometry, the id and the handle of a buffer as ints and descriptors; `unflatten`
makes a handle of what it reads and registers it, which maps the buffer.  The cursors are the `buffer`,
`size`, `fds` and `count` that both functions advance.  Handles live in a store, so that it is seen who
frees them.
-/

namespace IntelCamera

open Lib

namespace Gralloc

/-! ### Native handles -/

/-- `native_handle_t`: the descriptors and the ints of `data`. -/
structure NativeHandle where
  fds : List Int32
  ints : List Int32
deriving DecidableEq, Repr

/-- `data[i]`. -/
def NativeHandle.data (h : NativeHandle) (i : ℕ) : Int32 := (h.fds ++ h.ints).getD i 0

/-- `kMaxNativeFds` and `kMaxNativeInts`. -/
def maxNative : ℕ := 1024

/-- `native_handle_create` returns a handle. -/
def nativeHandleCreate (mallocOk : Bool) (numFds numInts : ℕ) : Bool :=
  decide (numFds ≤ maxNative ∧ numInts ≤ maxNative) && mallocOk

/-- `private_handle_t::validate`. -/
def NativeHandle.validate (h : NativeHandle) : Bool :=
  decide (h.ints.length = 14 ∧ h.fds.length = 1 ∧ h.data 1 = 0x3141592)

/-- The handle as a `private_handle_t`: there is a gap before `base`, which is aligned. -/
def NativeHandle.priv (h : NativeHandle) : PrivateHandle where
  fd := h.data 0
  magic := h.data 1
  flags := h.data 2
  size := h.data 3
  offset := h.data 4
  width := h.data 5
  height := h.data 6
  stride := h.data 7
  halFormat := h.data 8
  usage := h.data 9
  base := (h.data 11).toUInt32.toUInt64 ||| ((h.data 12).toUInt32.toUInt64 <<< 32)

/-- `hnd->base = base`. -/
def NativeHandle.setBase (h : NativeHandle) (base : UInt64) : NativeHandle :=
  { h with ints := (h.ints.set 10 base.toUInt32.toInt32).set 11 (base >>> 32).toUInt32.toInt32 }

variable (sys : System)

/-- `GraphicBufferMapper::registerBuffer`. -/
def registerBuffer (h : NativeHandle) : Int32 × NativeHandle :=
  if h.validate then
    match mapBuffer sys h.priv with
    | .error err => (err, h)
    | .ok hnd =>
      (0, if h.priv.flags &&& privFlagsFramebuffer ≠ 0 then h else h.setBase hnd.base)
  else (-22, h)

/-! ### Graphic buffers -/

/-- `mOwner`. -/
inductive Owner
  | ownNone | ownHandle | ownData
deriving DecidableEq, Repr

/-- `GraphicBuffer`. -/
structure GraphicBuffer where
  owner : Owner
  width : Int32
  height : Int32
  stride : Int32
  format : Int32
  usage : Int32
  id : UInt64
  generationNumber : UInt32
  handle : Option ℕ
deriving DecidableEq, Repr

/-- `width = height = stride = format = usage = 0; handle = NULL`. -/
def GraphicBuffer.reset (g : GraphicBuffer) : GraphicBuffer :=
  { g with width := 0, height := 0, stride := 0, format := 0, usage := 0, handle := none }

/-- The handles in memory, and how often one was freed that is not there. -/
structure Handles where
  store : Store NativeHandle
  faults : ℕ

/-- The end of a handle. -/
def Handles.delete (w : Handles) (p : ℕ) : Handles :=
  match w.store.get p with
  | some _ => { w with store := w.store.free p }
  | none => { w with faults := w.faults + 1 }

/-- `GraphicBufferAllocator::free`: the device refuses a handle that is not its own. -/
def Handles.allocatorFree (w : Handles) (p : ℕ) : Handles :=
  match w.store.get p with
  | some h => if h.validate then w.delete p else w
  | none => { w with faults := w.faults + 1 }

/-- `free_handle`. -/
def freeHandle (w : Handles) (g : GraphicBuffer) : Handles :=
  match g.handle with
  | none => w
  | some p =>
    match g.owner with
    | .ownHandle => w.delete p
    | .ownData => w.allocatorFree p
    | .ownNone => w

/-! ### Flattening -/

/-- Where `flatten` writes: what stands before the cursor, and the room that is left. -/
structure Out where
  buffer : List Int32
  size : ℕ
  fds : List Int32
  count : ℕ
deriving DecidableEq, Repr

/-- What `unflatten` reads. -/
structure In where
  buffer : List Int32
  size : ℕ
  fds : List Int32
  count : ℕ
deriving DecidableEq, Repr

/-- The handle of a buffer. -/
def GraphicBuffer.contents (w : Handles) (g : GraphicBuffer) : Option NativeHandle :=
  g.handle.bind w.store.get

/-- `'GBFR'`. -/
def gbfr : Int32 := 0x47424652

/-- The eleven ints before those of the handle. -/
def GraphicBuffer.header (g : GraphicBuffer) (numFds numInts : ℕ) : List Int32 :=
  [gbfr, g.width, g.height, g.stride, g.format, g.usage, (g.id >>> 32).toUInt32.toInt32,
    g.id.toUInt32.toInt32, g.generationNumber.toInt32, Int32.ofNat numFds, Int32.ofNat numInts]

/-- `flatten`: the status and the cursor. -/
def flatten (w : Handles) (g : GraphicBuffer) (out : Out) : Int32 × Out :=
  let h := (g.contents w).getD ⟨[], []⟩
  let sizeNeeded := (11 + h.ints.length) * 4
  if out.size < sizeNeeded then (-12, out) else
  if out.count < h.fds.length then (-12, out) else
  (0, {
    buffer := out.buffer ++ (g.header h.fds.length h.ints.length ++ h.ints)
    size := out.size - sizeNeeded
    fds := out.fds ++ h.fds
    count := out.count - h.fds.length })

/-- `unflatten`: the status, the handles, the buffer and the cursor. -/
def unflatten (mallocOk : Bool) (w : Handles) (g : GraphicBuffer) (inp : In) :
    Int32 × Handles × GraphicBuffer × In :=
  if inp.size < 44 then (-12, w, g, inp) else
  let buf := fun i => inp.buffer.getD i 0
  -- `BAD_TYPE`
  if buf 0 ≠ gbfr then (-2147483647, w, g, inp) else
  let numFds := (sizeT (buf 9)).toNat
  let numInts := (sizeT (buf 10)).toNat
  -- the previous handle is dropped here, not freed
  if 4096 ≤ numFds ∨ 4096 - 11 ≤ numInts then (-22, w, g.reset, inp) else
  let sizeNeeded := (11 + numInts) * 4
  if inp.size < sizeNeeded then (-12, w, g, inp) else
  if inp.count < numFds then (-12, w, g, inp) else
  let w := freeHandle w g
  let named (g : GraphicBuffer) : GraphicBuffer := { g with
    owner := .ownHandle
    id := (sizeT (buf 6) <<< 32) ||| (buf 7).toUInt32.toUInt64
    generationNumber := (buf 8).toUInt32 }
  let after : In :=
    ⟨inp.buffer.drop (11 + numInts), inp.size - sizeNeeded, inp.fds.drop numFds, inp.count - numFds⟩
  if numFds = 0 ∧ numInts = 0 then (0, w, named g.reset, after) else
  if !nativeHandleCreate mallocOk numFds numInts then (-12, w, g.reset, inp) else
  let h : NativeHandle := ⟨inp.fds.take numFds, slice inp.buffer 11 numInts⟩
  let p := w.store.next
  let registered := registerBuffer sys h
  let w := { w with store := w.store.alloc registered.2 }
  -- the new handle is dropped here, not deleted
  if registered.1 ≠ 0 then (registered.1, w, named g.reset, inp) else
  (0, w, named { g with
    width := buf 1, height := buf 2, stride := buf 3, format := buf 4, usage := buf 5
    handle := some p }, after)

/-- Buffers written one after the other. -/
def flattenAll (w : Handles) : List GraphicBuffer → Out → Int32 × Out
  | [], out => (0, out)
  | g :: gs, out =>
    let r := flatten w g out
    if r.1 ≠ 0 then r else flattenAll w gs r.2

/-- Buffers read one after the other, with memory for their handles. -/
def unflattenAll : Handles → List GraphicBuffer → In → Int32 × Handles × List GraphicBuffer × In
  | w, [], inp => (0, w, [], inp)
  | w, r :: rs, inp =>
    let u := unflatten sys true w r inp
    if u.1 ≠ 0 then (u.1, u.2.1, u.2.2.1 :: rs, u.2.2.2) else
    let v := unflattenAll u.2.1 rs u.2.2.2
    (v.1, v.2.1, u.2.2.1 :: v.2.2.1, v.2.2.2)

/-! ### What is read is what was written -/

theorem toNat_sizeT_shiftLeft (u : UInt32) : (sizeT u.toInt32 <<< 32).toNat = u.toNat <<< 32 := by
  have h := toNat_sizeT u.toInt32
  have hi : u.toInt32.toInt = (u.toNat : ℤ).bmod (2 ^ 32) := BitVec.toInt_eq_toNat_bmod u.toBitVec
  have hu := u.toNat_lt
  have h32 : ((32 : UInt64).toNat % 64) = 32 := rfl
  rw [hi, Int.bmod_def] at h
  rw [UInt64.toNat_shiftLeft, h32, Nat.shiftLeft_eq, Nat.shiftLeft_eq]
  split_ifs at h <;> omega

/-- The two halves of `mId`: the sign of the upper one is shifted out. -/
theorem join_halves (x : UInt64) :
    (sizeT (x >>> 32).toUInt32.toInt32 <<< 32) ||| x.toUInt32.toInt32.toUInt32.toUInt64 = x := by
  apply UInt64.toNat_inj.mp
  have hx := x.toNat_lt
  have hlo : x.toUInt32.toInt32.toUInt32.toUInt64.toNat = x.toNat % 2 ^ 32 := by simp
  have hhi : (x >>> 32).toUInt32.toNat = x.toNat / 2 ^ 32 := by
    have h32 : ((32 : UInt64).toNat % 64) = 32 := rfl
    rw [UInt64.toNat_toUInt32, UInt64.toNat_shiftRight, h32, Nat.shiftRight_eq_div_pow]
    omega
  rw [UInt64.toNat_or, toNat_sizeT_shiftLeft, hlo, hhi,
    ← Nat.shiftLeft_add_eq_or_of_lt (Nat.mod_lt _ (by norm_num)), Nat.shiftLeft_eq]
  omega

section RoundTrip

variable {sys} {w w' : Handles} {g r : GraphicBuffer} {h : NativeHandle}

/-- What `flatten` writes for a buffer with the handle `h`. -/
def GraphicBuffer.words (g : GraphicBuffer) (h : NativeHandle) : List Int32 :=
  g.header h.fds.length h.ints.length ++ h.ints

theorem unflatten_words_none {rest fds : List Int32} {size count : ℕ} (hsize : 44 ≤ size) :
    unflatten sys true w r ⟨g.words ⟨[], []⟩ ++ rest, size, fds, count⟩ =
      (0, freeHandle w r,
        { r.reset with owner := .ownHandle, id := g.id, generationNumber := g.generationNumber },
        ⟨rest, size - 44, fds, count⟩) := by
  have hmagic : (g.words ⟨[], []⟩ ++ rest).getD 0 0 = gbfr := rfl
  have hid : (g.words ⟨[], []⟩ ++ rest).getD 6 0 = (g.id >>> 32).toUInt32.toInt32 := rfl
  have hid' : (g.words ⟨[], []⟩ ++ rest).getD 7 0 = g.id.toUInt32.toInt32 := rfl
  have hgen : (g.words ⟨[], []⟩ ++ rest).getD 8 0 = g.generationNumber.toInt32 := rfl
  have hnumFds : (sizeT ((g.words ⟨[], []⟩ ++ rest).getD 9 0)).toNat = 0 := rfl
  have hnumInts : (sizeT ((g.words ⟨[], []⟩ ++ rest).getD 10 0)).toNat = 0 := rfl
  simp only [unflatten, hmagic, hnumFds, hnumInts, hid, hid', hgen, join_halves, ne_eq,
    not_true_eq_false, if_false, and_self, if_true]
  rw [if_neg (Nat.not_lt.mpr hsize), if_neg (by omega), if_neg (by omega), if_neg (by omega)]
  rfl

theorem unflatten_words {rest fds : List Int32} {size count : ℕ} (hv : h.validate)
    (hreg : (registerBuffer sys h).1 = 0) (hsize : 100 ≤ size) (hcount : 1 ≤ count) :
    unflatten sys true w r ⟨g.words h ++ rest, size, h.fds ++ fds, count⟩ =
      (0, { freeHandle w r with
          store := (freeHandle w r).store.alloc (registerBuffer sys h).2 },
        { g with owner := .ownHandle, handle := some (freeHandle w r).store.next },
        ⟨rest, size - 100, fds, count - 1⟩) := by
  obtain ⟨hints, hfds, -⟩ := of_decide_eq_true hv
  have hmagic : (g.words h ++ rest).getD 0 0 = gbfr := rfl
  have hid : (g.words h ++ rest).getD 6 0 = (g.id >>> 32).toUInt32.toInt32 := rfl
  have hid' : (g.words h ++ rest).getD 7 0 = g.id.toUInt32.toInt32 := rfl
  have hgen : (g.words h ++ rest).getD 8 0 = g.generationNumber.toInt32 := rfl
  have hnumFds : (sizeT ((g.words h ++ rest).getD 9 0)).toNat = 1 := by
    change (sizeT (Int32.ofNat h.fds.length)).toNat = 1
    rw [hfds]
    rfl
  have hnumInts : (sizeT ((g.words h ++ rest).getD 10 0)).toNat = 14 := by
    change (sizeT (Int32.ofNat h.ints.length)).toNat = 14
    rw [hints]
    rfl
  have hh : (⟨(h.fds ++ fds).take 1, slice (g.words h ++ rest) 11 14⟩ : NativeHandle) = h := by
    have hdrop : (g.words h ++ rest).drop 11 = h.ints ++ rest := rfl
    have htake : (h.fds ++ fds).take h.fds.length = h.fds := List.take_left
    have htake' : (h.ints ++ rest).take h.ints.length = h.ints := List.take_left
    rw [hfds] at htake
    rw [hints] at htake'
    rw [slice, hdrop, htake, htake']
  have hrest : (g.words h ++ rest).drop (11 + 14) = rest := by
    rw [← List.drop_drop]
    have hdrop : (h.ints ++ rest).drop h.ints.length = rest := List.drop_left
    rw [hints] at hdrop
    exact hdrop
  have hrest' : (h.fds ++ fds).drop 1 = fds := by
    have hdrop : (h.fds ++ fds).drop h.fds.length = fds := List.drop_left
    rwa [hfds] at hdrop
  simp only [unflatten, hmagic, hnumFds, hnumInts, hid, hid', hgen, join_halves, hh, hrest, hrest',
    hreg, ne_eq, not_true_eq_false, if_false]
  rw [if_neg (by omega), if_neg (by omega), if_neg (by omega), if_neg (by omega), if_neg (by omega),
    if_neg (by decide)]
  rfl

/-- The handle that `flatten` writes: an empty one for none. -/
def GraphicBuffer.payload (w : Handles) (g : GraphicBuffer) : NativeHandle :=
  (g.contents w).getD ⟨[], []⟩

/-- The ints and the descriptors of buffers written one after the other. -/
def stream (w : Handles) (gs : List GraphicBuffer) : List Int32 :=
  gs.flatMap fun g => g.words (g.payload w)

@[inherit_doc stream]
def streamFds (w : Handles) (gs : List GraphicBuffer) : List Int32 :=
  gs.flatMap fun g => (g.payload w).fds

@[simp] theorem length_words : (g.words h).length = 11 + h.ints.length := by
  rw [GraphicBuffer.words, List.length_append]
  rfl

/-- `flatten` writes all or nothing. -/
theorem flatten_ok {out out' : Out} (hf : flatten w g out = (0, out')) :
    out'.buffer = out.buffer ++ g.words (g.payload w) ∧ out'.fds = out.fds ++ (g.payload w).fds ∧
      out.size = out'.size + 4 * (g.words (g.payload w)).length ∧
      out.count = out'.count + (g.payload w).fds.length := by
  simp only [flatten] at hf
  split at hf
  · simp at hf
  · split at hf
    · simp at hf
    · cases hf
      refine ⟨rfl, rfl, ?_, ?_⟩
      · rw [length_words]
        unfold GraphicBuffer.payload
        dsimp only
        omega
      · unfold GraphicBuffer.payload
        dsimp only
        omega

theorem flattenAll_ok {gs : List GraphicBuffer} {out out' : Out}
    (hf : flattenAll w gs out = (0, out')) :
    out'.buffer = out.buffer ++ stream w gs ∧ out'.fds = out.fds ++ streamFds w gs ∧
      out.size = out'.size + 4 * (stream w gs).length ∧
      out.count = out'.count + (streamFds w gs).length := by
  induction gs generalizing out with
  | nil =>
    cases hf
    simp [stream, streamFds]
  | cons g gs ih =>
    rcases hr : flatten w g out with ⟨err, out₁⟩
    simp only [flattenAll, hr] at hf
    split_ifs at hf with h0
    · exact absurd (congrArg Prod.fst hf) h0
    · obtain rfl := not_not.mp h0
      obtain ⟨h1, h2, h3, h4⟩ := flatten_ok hr
      obtain ⟨i1, i2, i3, i4⟩ := ih hf
      simp only [stream, streamFds, List.flatMap_cons, List.length_append] at i1 i2 i3 i4 ⊢
      refine ⟨?_, ?_, by omega, by omega⟩
      · rw [i1, h1, List.append_assoc]
      · rw [i2, h2, List.append_assoc]

/-- A buffer without a handle, or with one of this allocator. -/
def Sendable (w : Handles) (g : GraphicBuffer) : Prop :=
  g.handle = none ∨ ∃ h, g.contents w = some h ∧ h.validate

/-- What the other side gets: a buffer without a handle loses its geometry, and `registerBuffer` sets
the address of the mapping. -/
structure Received (sys : System) (w w' : Handles) (g r : GraphicBuffer) : Prop where
  owner : r.owner = .ownHandle
  id : r.id = g.id
  generationNumber : r.generationNumber = g.generationNumber
  handle : r.contents w' = (g.contents w).map fun h => (registerBuffer sys h).2
  geometry : g.handle.isSome → r.width = g.width ∧ r.height = g.height ∧ r.stride = g.stride ∧
    r.format = g.format ∧ r.usage = g.usage

theorem get_freeHandle {n q : ℕ} (hr : ∀ p, r.handle = some p → p < n) (hq : n ≤ q) :
    (freeHandle w r).store.get q = w.store.get q := by
  have hdel : ∀ p, p < n → (w.delete p).store.get q = w.store.get q := by
    intro p hp
    unfold Handles.delete
    split
    · exact Store.get_free_ne (by omega)
    · rfl
  unfold freeHandle
  split
  · rfl
  · rename_i p hp
    split
    · exact hdel p (hr p hp)
    · unfold Handles.allocatorFree
      split
      · split_ifs
        · exact hdel p (hr p hp)
        · rfl
      · rfl
    · rfl

theorem next_freeHandle : (freeHandle w r).store.next = w.store.next := by
  have hdel : ∀ p, (w.delete p).store.next = w.store.next := by
    intro p
    unfold Handles.delete
    split
    · simp [Store.free, Store.next]
    · rfl
  unfold freeHandle
  split
  · rfl
  · split
    · exact hdel _
    · unfold Handles.allocatorFree
      split
      · split_ifs
        · exact hdel _
        · rfl
      · rfl
    · rfl

/-- The receiving process can register the handle of `g`, if it has one. -/
def CanRegister (sys : System) (w : Handles) (g : GraphicBuffer) : Prop :=
  ∀ h ∈ g.contents w, (registerBuffer sys h).1 = 0

/-- One buffer.  `n` is above all handles of the receivers, so none of what was received before goes. -/
theorem unflatten_received (hmap : CanRegister sys w g) (hg : Sendable w g) {n : ℕ}
    (hr : ∀ p, r.handle = some p → p < n) (hn : n ≤ w'.store.next) (rest fds : List Int32)
    (size count : ℕ) :
    ∃ w₁ r₁, unflatten sys true w' r ⟨g.words (g.payload w) ++ rest,
        4 * (g.words (g.payload w)).length + size, (g.payload w).fds ++ fds,
        (g.payload w).fds.length + count⟩ = (0, w₁, r₁, ⟨rest, size, fds, count⟩) ∧
      Received sys w w₁ g r₁ ∧ (∀ p, r₁.handle = some p → n ≤ p ∧ p < w₁.store.next) ∧
      w'.store.next ≤ w₁.store.next ∧
      ∀ q, n ≤ q → q < w'.store.next → w₁.store.get q = w'.store.get q := by
  rcases hg with hg | ⟨h, hh, hv⟩
  · have hc : g.contents w = none := by
      rw [GraphicBuffer.contents, hg]
      rfl
    have hp : g.payload w = ⟨[], []⟩ := by rw [GraphicBuffer.payload, hc, Option.getD_none]
    rw [hp, length_words]
    refine ⟨freeHandle w' r,
      { r.reset with owner := .ownHandle, id := g.id, generationNumber := g.generationNumber },
      ?_, ⟨rfl, rfl, rfl, ?_, ?_⟩, ?_, ?_, ?_⟩
    · have h44 : 4 * (11 + ([] : List Int32).length) + size = size + 44 := by
        rw [List.length_nil]
        omega
      simp only [List.nil_append, List.length_nil, Nat.zero_add] at h44 ⊢
      rw [unflatten_words_none (by omega)]
      simp only [Prod.mk.injEq, In.mk.injEq, true_and, and_true]
      omega
    · rw [hc]
      rfl
    · rw [hg]
      exact fun h => absurd h (by decide)
    · exact fun p hp => by cases hp
    · rw [next_freeHandle]
    · exact fun q hq _ => get_freeHandle hr hq
  · have hp : g.payload w = h := by rw [GraphicBuffer.payload, hh, Option.getD_some]
    obtain ⟨hints, hfds, -⟩ := of_decide_eq_true hv
    rw [hp, length_words, hints, hfds]
    refine ⟨{ freeHandle w' r with
        store := (freeHandle w' r).store.alloc (registerBuffer sys h).2 },
      { g with owner := .ownHandle, handle := some (freeHandle w' r).store.next },
      ?_, ⟨rfl, rfl, rfl, ?_, ?_⟩, ?_, ?_, ?_⟩
    · rw [unflatten_words hv (hmap h hh) (by omega) (by omega)]
      simp only [Prod.mk.injEq, In.mk.injEq, true_and]
      omega
    · rw [hh]
      exact Store.get_alloc_next
    · exact fun _ => ⟨rfl, rfl, rfl, rfl, rfl⟩
    · rintro p ⟨rfl⟩
      rw [Store.next_alloc, next_freeHandle]
      omega
    · rw [Store.next_alloc, next_freeHandle]
      omega
    · intro q hq hlt
      rw [Store.get_alloc_lt (by rw [next_freeHandle]; exact hlt)]
      exact get_freeHandle hr hq

/-- What was received stays as long as its handle does. -/
theorem Received.mono {w₁ w₂ : Handles} (hrec : Received sys w w₁ g r)
    (hp : ∀ p, r.handle = some p → w₂.store.get p = w₁.store.get p) : Received sys w w₂ g r := by
  refine { hrec with handle := ?_ }
  rw [← hrec.handle, GraphicBuffer.contents, GraphicBuffer.contents]
  cases hh : r.handle with
  | none => rfl
  | some p => exact hp p hh

theorem unflattenAll_stream {n : ℕ} (rest restFds : List Int32) (size count : ℕ)
    {gs rs : List GraphicBuffer} (hmap : ∀ g ∈ gs, CanRegister sys w g) (hgs : ∀ g ∈ gs, Sendable w g) (hlen : rs.length = gs.length)
    (hrs : ∀ r ∈ rs, ∀ p, r.handle = some p → p < n) (hn : n ≤ w'.store.next) :
    ∃ w'' rs', unflattenAll sys w' rs ⟨stream w gs ++ rest, 4 * (stream w gs).length + size,
        streamFds w gs ++ restFds, (streamFds w gs).length + count⟩ =
          (0, w'', rs', ⟨rest, size, restFds, count⟩) ∧
      List.Forall₂ (Received sys w w'') gs rs' ∧
      ∀ q, n ≤ q → q < w'.store.next → w''.store.get q = w'.store.get q := by
  induction gs generalizing rs w' with
  | nil =>
    obtain rfl := List.eq_nil_of_length_eq_zero hlen
    refine ⟨w', [], ?_, .nil, fun _ _ _ => rfl⟩
    simp [unflattenAll, stream, streamFds]
  | cons g gs ih =>
    cases rs with
    | nil => cases hlen
    | cons r rs =>
      obtain ⟨w₁, r₁, hu, hrec, hfresh, hnext, hkeep⟩ :=
        unflatten_received (hmap g List.mem_cons_self) (hgs g List.mem_cons_self) (hrs r List.mem_cons_self) hn
          (stream w gs ++ rest) (streamFds w gs ++ restFds) (4 * (stream w gs).length + size)
          ((streamFds w gs).length + count)
      obtain ⟨w₂, rs₂, hall, hrecs, hkeep'⟩ :=
        ih (fun g hg => hmap g (List.mem_cons_of_mem _ hg)) (fun g hg => hgs g (List.mem_cons_of_mem _ hg))
          (Nat.succ.inj hlen)
          (fun r hr => hrs r (List.mem_cons_of_mem _ hr)) (hn.trans hnext)
      have hints : stream w (g :: gs) = g.words (g.payload w) ++ stream w gs := List.flatMap_cons
      have hfds : streamFds w (g :: gs) = (g.payload w).fds ++ streamFds w gs := List.flatMap_cons
      refine ⟨w₂, r₁ :: rs₂, ?_, .cons (hrec.mono fun p hp => ?_) hrecs, fun q hq hlt => ?_⟩
      · rw [hints, hfds, List.append_assoc, List.append_assoc, List.length_append,
          List.length_append, Nat.mul_add, Nat.add_assoc, Nat.add_assoc]
        simp only [unflattenAll, hu, ne_eq, not_true_eq_false, if_false, hall]
      · exact hkeep' p (hfresh p hp).1 (hfresh p hp).2
      · rw [hkeep' q hq (by omega), hkeep q hq hlt]

/-- **The stream.**  Buffers that were written one after the other are read back in order, if their
handles can be registered, and the cursor stands behind the last one. -/
theorem unflattenAll_flattenAll {gs rs : List GraphicBuffer} {out out' : Out}
    (hf : flattenAll w gs out = (0, out')) (hgs : ∀ g ∈ gs, Sendable w g)
    (hmap : ∀ g ∈ gs, CanRegister sys w g)
    (hlen : rs.length = gs.length) (hrs : ∀ r ∈ rs, ∀ p, r.handle = some p → p < w'.store.next) :
    ∃ ints fds, out'.buffer = out.buffer ++ ints ∧ out'.fds = out.fds ++ fds ∧
      out.size = out'.size + 4 * ints.length ∧ out.count = out'.count + fds.length ∧
      ∀ rest restFds size count, ∃ w'' rs',
        unflattenAll sys w' rs ⟨ints ++ rest, 4 * ints.length + size, fds ++ restFds,
          fds.length + count⟩ = (0, w'', rs', ⟨rest, size, restFds, count⟩) ∧
        List.Forall₂ (Received sys w w'') gs rs' := by
  obtain ⟨h1, h2, h3, h4⟩ := flattenAll_ok hf
  refine ⟨stream w gs, streamFds w gs, h1, h2, h3, h4, fun rest restFds size count => ?_⟩
  obtain ⟨w'', rs', hall, hrecs, -⟩ :=
    unflattenAll_stream rest restFds size count hmap hgs hlen hrs (Nat.le_refl _)
  exact ⟨w'', rs', hall, hrecs⟩

/-- A buffer of four pixels in the first process, and one that was never allocated. -/
def demoHandles : Handles :=
  ⟨⟨[some ⟨[7], [0x3141592, 0, 4096, 0, 2, 2, 2, 1, 3, 0, 65536, 0, 42, 0]⟩]⟩, 0⟩

@[inherit_doc demoHandles]
def demoBuffers : List GraphicBuffer :=
  [⟨.ownData, 2, 2, 2, 1, 3, 0x2a00000001, 5, some 0⟩, ⟨.ownData, 0, 0, 0, 0, 0, 0x2a00000002, 6, none⟩]

/-- Two buffers of the other process. -/
def demoReceivers : List GraphicBuffer :=
  [⟨.ownData, 0, 0, 0, 0, 0, 1, 0, none⟩, ⟨.ownData, 0, 0, 0, 0, 0, 2, 0, none⟩]

theorem unflattenAll_flattenAll_demo : ∃ ints fds,
    (flattenAll demoHandles demoBuffers ⟨[], 200, [], 3⟩).2.buffer = [] ++ ints ∧
      ∃ w'' rs', unflattenAll demoSystem ⟨.empty, 0⟩ demoReceivers
          ⟨ints ++ [9], 4 * ints.length + 4, fds ++ [], fds.length + 0⟩ =
            (0, w'', rs', ⟨[9], 4, [], 0⟩) ∧
        List.Forall₂ (Received demoSystem demoHandles w'') demoBuffers rs' := by
  have hf : flattenAll demoHandles demoBuffers ⟨[], 200, [], 3⟩ =
      (0, (flattenAll demoHandles demoBuffers ⟨[], 200, [], 3⟩).2) := rfl
  have hgs : ∀ g ∈ demoBuffers, Sendable demoHandles g := by
    intro g hg
    rcases List.mem_cons.mp hg with rfl | hg
    · exact .inr ⟨_, rfl, by decide⟩
    · exact .inl (congrArg GraphicBuffer.handle (List.mem_singleton.mp hg))
  have hlen : demoReceivers.length = demoBuffers.length := rfl
  have hrs : ∀ r ∈ demoReceivers, ∀ p, r.handle = some p → p < (⟨.empty, 0⟩ : Handles).store.next := by
    simp [demoReceivers]
  have hmap : ∀ g ∈ demoBuffers, CanRegister demoSystem demoHandles g := by
    intro g hg h hh
    rcases List.mem_cons.mp hg with rfl | hg
    · obtain rfl := Option.some.inj hh
      decide
    · rw [List.mem_singleton.mp hg] at hh
      cases hh
  obtain ⟨ints, fds, hbuffer, -, -, -, hread⟩ := unflattenAll_flattenAll hf hgs hmap hlen hrs
  exact ⟨ints, fds, hbuffer, hread [9] [] 4 0⟩

end RoundTrip

/-! ### What is accepted is well formed -/

theorem toNat_joined (a b : Int32) :
    ((sizeT a <<< 32) ||| b.toUInt32.toUInt64).toNat =
      a.toUInt32.toNat * 2 ^ 32 + b.toUInt32.toNat := by
  have h := toNat_sizeT_shiftLeft a.toUInt32
  rw [Int32.toInt32_toUInt32] at h
  rw [UInt64.toNat_or, h, UInt32.toNat_toUInt64,
    ← Nat.shiftLeft_add_eq_or_of_lt b.toUInt32.toNat_lt, Nat.shiftLeft_eq]

theorem upper_joined (a b : Int32) :
    (((sizeT a <<< 32) ||| b.toUInt32.toUInt64) >>> 32).toUInt32.toInt32 = a := by
  have h : (((sizeT a <<< 32) ||| b.toUInt32.toUInt64) >>> 32).toUInt32 = a.toUInt32 := by
    apply UInt32.toNat_inj.mp
    have h32 : ((32 : UInt64).toNat % 64) = 32 := rfl
    have ha := a.toUInt32.toNat_lt
    have hb := b.toUInt32.toNat_lt
    rw [UInt64.toNat_toUInt32, UInt64.toNat_shiftRight, h32, toNat_joined, Nat.shiftRight_eq_div_pow]
    omega
  rw [h, Int32.toInt32_toUInt32]

theorem lower_joined (a b : Int32) :
    ((sizeT a <<< 32) ||| b.toUInt32.toUInt64).toUInt32.toInt32 = b := by
  have h : ((sizeT a <<< 32) ||| b.toUInt32.toUInt64).toUInt32 = b.toUInt32 := by
    apply UInt32.toNat_inj.mp
    have hb := b.toUInt32.toNat_lt
    rw [UInt64.toNat_toUInt32, toNat_joined]
    omega
  rw [h, Int32.toInt32_toUInt32]

theorem ofNat_toNat_sizeT {a : Int32} (h : (sizeT a).toNat < 2 ^ 31) :
    Int32.ofNat (sizeT a).toNat = a := by
  have ha := toNat_sizeT a
  apply Int32.toInt_inj.mp
  rw [Int32.toInt_ofNat_of_lt (by omega), ha]
  have hle := Int32.le_toInt a
  have hlt := Int32.toInt_lt a
  omega

section Accepted

variable {sys} {mallocOk : Bool} {w w' : Handles} {g r : GraphicBuffer} {inp inp' : In}

/-- The ints and descriptors that may be read. -/
def In.Backed (inp : In) : Prop := inp.size ≤ 4 * inp.buffer.length ∧ inp.count ≤ inp.fds.length

/-- A handle that could be registered is one of this allocator. -/
theorem validate_of_registerBuffer {h : NativeHandle} (hreg : (registerBuffer sys h).1 = 0) :
    h.validate := by
  by_contra hv
  rw [registerBuffer, if_neg hv] at hreg
  exact absurd hreg (show ¬(-22 : Int32) = 0 by decide)

/-- The buffer that is read, with its handle. -/
def GraphicBuffer.read (buf : List Int32) (handle : ℕ) : GraphicBuffer where
  owner := .ownHandle
  width := buf.getD 1 0
  height := buf.getD 2 0
  stride := buf.getD 3 0
  format := buf.getD 4 0
  usage := buf.getD 5 0
  id := (sizeT (buf.getD 6 0) <<< 32) ||| (buf.getD 7 0).toUInt32.toUInt64
  generationNumber := (buf.getD 8 0).toUInt32
  handle := some handle

/-- The two ways in which `unflatten` succeeds. -/
inductive Accepted (sys : System) (w : Handles) (r : GraphicBuffer) (inp : In) :
    Handles → GraphicBuffer → In → Prop
  | empty (hsize : 44 ≤ inp.size) (hfds : inp.buffer.getD 9 0 = 0) (hints : inp.buffer.getD 10 0 = 0) :
      Accepted sys w r inp (freeHandle w r)
        { r.reset with
          owner := .ownHandle
          id := (sizeT (inp.buffer.getD 6 0) <<< 32) ||| (inp.buffer.getD 7 0).toUInt32.toUInt64
          generationNumber := (inp.buffer.getD 8 0).toUInt32 }
        ⟨inp.buffer.drop 11, inp.size - 44, inp.fds, inp.count⟩
  | handle (hsize : 100 ≤ inp.size) (hcount : 1 ≤ inp.count) (hfds : inp.buffer.getD 9 0 = 1)
      (hints : inp.buffer.getD 10 0 = 14)
      (hv : NativeHandle.validate ⟨inp.fds.take 1, slice inp.buffer 11 14⟩) :
      Accepted sys w r inp
        { freeHandle w r with
          store := (freeHandle w r).store.alloc
            (registerBuffer sys ⟨inp.fds.take 1, slice inp.buffer 11 14⟩).2 }
        (.read inp.buffer (freeHandle w r).store.next)
        ⟨inp.buffer.drop 25, inp.size - 100, inp.fds.drop 1, inp.count - 1⟩

theorem unflatten_ok (hin : inp.Backed) (hu : unflatten sys mallocOk w r inp = (0, w', g, inp')) :
    inp.buffer.getD 0 0 = gbfr ∧ Accepted sys w r inp w' g inp' := by
  simp only [unflatten] at hu
  split at hu
  · simp at hu
  split at hu
  · simp at hu
  split at hu
  · simp at hu
  split at hu
  · simp at hu
  split at hu
  · simp at hu
  rename_i hsize hmagic hmax hsize' hcount
  refine ⟨not_not.mp hmagic, ?_⟩
  have hfds := ofNat_toNat_sizeT (a := inp.buffer.getD 9 0) (by omega)
  have hints := ofNat_toNat_sizeT (a := inp.buffer.getD 10 0) (by omega)
  split at hu
  · rename_i hzero
    obtain ⟨hz, hz'⟩ := hzero
    simp only [hz, hz', Prod.mk.injEq, true_and] at hu hfds hints
    obtain ⟨rfl, rfl, rfl⟩ := hu
    exact .empty (by omega) hfds.symm hints.symm
  split at hu
  · simp at hu
  split at hu
  · rename_i hreg
    exact absurd (congrArg Prod.fst hu) hreg
  · rename_i hreg
    have hv := validate_of_registerBuffer (not_not.mp hreg)
    obtain ⟨hints', hfds', -⟩ := of_decide_eq_true hv
    dsimp only at hints' hfds'
    have hlen : (sizeT (inp.buffer.getD 10 0)).toNat = 14 := by
      rw [length_slice (by have := hin.1; omega)] at hints'
      exact hints'
    have hlen' : (sizeT (inp.buffer.getD 9 0)).toNat = 1 := by
      rw [List.length_take_of_le (by have := hin.2; omega)] at hfds'
      exact hfds'
    simp only [hlen, hlen', Prod.mk.injEq, true_and] at hu hv hfds hints hsize' hcount
    obtain ⟨rfl, rfl, rfl⟩ := hu
    exact .handle (by omega) (by omega) hfds.symm hints.symm hv

/-- The ints that differ when a buffer is sent on: the address of the mapping, or the geometry of a
buffer without a handle. -/
def Rewritten (g : GraphicBuffer) (i : ℕ) : Prop :=
  if g.handle.isSome then i = 21 ∨ i = 22 else 1 ≤ i ∧ i ≤ 5

theorem getElem?_eq_getD {l : List Int32} {i : ℕ} (hi : i < l.length) : l[i]? = some (l.getD i 0) := by
  rw [List.getD_eq_getElem?_getD, List.getElem?_eq_getElem hi, Option.getD_some]

/-- `registerBuffer` sets the address, if anything. -/
theorem registerBuffer_cases (sys : System) (h : NativeHandle) :
    (registerBuffer sys h).2 = h ∨ ∃ base, (registerBuffer sys h).2 = h.setBase base := by
  unfold registerBuffer
  by_cases hv : h.validate
  · rw [if_pos hv]
    cases mapBuffer sys h.priv with
    | error err => exact .inl rfl
    | ok hnd =>
      by_cases hfb : h.priv.flags &&& privFlagsFramebuffer ≠ 0
      · exact .inl (if_pos hfb)
      · exact .inr ⟨hnd.base, if_neg hfb⟩
  · rw [if_neg hv]
    exact .inl rfl

theorem registerBuffer_fds {h : NativeHandle} : (registerBuffer sys h).2.fds = h.fds := by
  obtain hr | ⟨base, hr⟩ := registerBuffer_cases sys h <;> rw [hr]
  rfl

theorem registerBuffer_length {h : NativeHandle} :
    (registerBuffer sys h).2.ints.length = h.ints.length := by
  obtain hr | ⟨base, hr⟩ := registerBuffer_cases sys h <;> rw [hr]
  simp [NativeHandle.setBase]

theorem registerBuffer_ints {h : NativeHandle} {i : ℕ} (hi : i ≠ 10) (hi' : i ≠ 11) :
    (registerBuffer sys h).2.ints[i]? = h.ints[i]? := by
  obtain hr | ⟨base, hr⟩ := registerBuffer_cases sys h <;> rw [hr]
  simp [NativeHandle.setBase, hi.symm, hi'.symm]

theorem flatten_eq {h : NativeHandle} {out : Out} (hp : g.payload w = h)
    (hsize : 4 * (11 + h.ints.length) ≤ out.size) (hcount : h.fds.length ≤ out.count) :
    flatten w g out = (0, ⟨out.buffer ++ g.words h, out.size - 4 * (11 + h.ints.length),
      out.fds ++ h.fds, out.count - h.fds.length⟩) := by
  unfold GraphicBuffer.payload at hp
  simp only [flatten, hp]
  rw [if_neg (by omega), if_neg (by omega), Nat.mul_comm 4]
  rfl

theorem header_read {buf : List Int32} {p numFds numInts : ℕ} (hlen : 11 ≤ buf.length)
    (hmagic : buf.getD 0 0 = gbfr) (hfds : buf.getD 9 0 = Int32.ofNat numFds)
    (hints : buf.getD 10 0 = Int32.ofNat numInts) :
    (GraphicBuffer.read buf p).header numFds numInts = buf.take 11 := by
  have htake : buf.take 11 = (List.range 11).map fun i => buf.getD i 0 := by
    apply List.ext_getElem?
    intro i
    rw [List.getElem?_take, List.getElem?_map]
    by_cases hi : i < 11
    · rw [if_pos hi, getElem?_eq_getD (by omega), List.getElem?_range hi, Option.map_some]
    · rw [if_neg hi, List.getElem?_eq_none (by rw [List.length_range]; omega), Option.map_none]
  rw [htake]
  simp only [GraphicBuffer.header, GraphicBuffer.read, ← hmagic, ← hfds, ← hints, upper_joined,
    lower_joined, Int32.toInt32_toUInt32]
  rfl

/-- **What is accepted.**  `unflatten` reads within its bounds, and the buffer it made flattens to what
was read, up to the ints that are rewritten. -/
theorem flatten_unflatten (hin : inp.Backed)
    (hu : unflatten sys mallocOk w r inp = (0, w', g, inp')) :
    ∃ n k, 4 * n ≤ inp.size ∧ k ≤ inp.count ∧
      inp' = ⟨inp.buffer.drop n, inp.size - 4 * n, inp.fds.drop k, inp.count - k⟩ ∧
      ∀ out : Out, 4 * n ≤ out.size → k ≤ out.count → ∃ ints,
        flatten w' g out = (0, ⟨out.buffer ++ ints, out.size - 4 * n, out.fds ++ inp.fds.take k,
          out.count - k⟩) ∧
        ints.length = n ∧ ∀ i < n, ¬Rewritten g i → ints[i]? = inp.buffer[i]? := by
  obtain ⟨hmagic, hacc⟩ := unflatten_ok hin hu
  cases hacc with
  | empty hsize hfds hints =>
    refine ⟨11, 0, hsize, Nat.zero_le _, rfl, fun out ho hc => ?_⟩
    refine ⟨_, flatten_eq (h := ⟨[], []⟩) rfl ho hc, length_words, fun i hi hrw => ?_⟩
    have hlen : i < inp.buffer.length := by have := hin.1; omega
    rw [getElem?_eq_getD hlen]
    have hcases : i = 0 ∨ i = 6 ∨ i = 7 ∨ i = 8 ∨ i = 9 ∨ i = 10 := by
      simp only [Rewritten, GraphicBuffer.reset] at hrw
      simp at hrw
      omega
    rcases hcases with rfl | rfl | rfl | rfl | rfl | rfl
    · rw [hmagic]
      rfl
    · exact congrArg some (upper_joined _ _)
    · exact congrArg some (lower_joined _ _)
    · rfl
    · rw [hfds]
      rfl
    · rw [hints]
      rfl
  | handle hsize hcount hfds hints hv =>
    obtain ⟨hlints, hlfds, -⟩ := of_decide_eq_true hv
    set h : NativeHandle := ⟨inp.fds.take 1, slice inp.buffer 11 14⟩ with hh
    have hlen : (registerBuffer sys h).2.ints.length = 14 := registerBuffer_length.trans hlints
    have hlen' : (registerBuffer sys h).2.fds.length = 1 := by
      rw [registerBuffer_fds]
      exact hlfds
    have hback := hin.1
    have hwords : (GraphicBuffer.read inp.buffer (freeHandle w r).store.next).words
        (registerBuffer sys h).2 = inp.buffer.take 11 ++ (registerBuffer sys h).2.ints := by
      rw [GraphicBuffer.words, hlen, hlen', header_read (by omega) hmagic hfds hints]
    have htake : (inp.buffer.take 11).length = 11 := List.length_take_of_le (by omega)
    refine ⟨25, 1, hsize, hcount, rfl, fun out ho hc => ?_⟩
    refine ⟨inp.buffer.take 11 ++ (registerBuffer sys h).2.ints, ?_, ?_, fun i hi hrw => ?_⟩
    · rw [flatten_eq (h := (registerBuffer sys h).2) (by simp [GraphicBuffer.payload,
        GraphicBuffer.contents, GraphicBuffer.read]) (by omega) (by omega), hwords, hlen, hlen',
        registerBuffer_fds]
    · rw [List.length_append, htake, hlen]
    · have hne : i ≠ 21 ∧ i ≠ 22 := by
        simp only [Rewritten, GraphicBuffer.read, Option.isSome_some, if_true] at hrw
        omega
      by_cases h11 : i < 11
      · rw [List.getElem?_append_left (by omega), List.getElem?_take_of_lt h11]
      · rw [List.getElem?_append_right (by omega), htake,
          registerBuffer_ints (by omega) (by omega), getElem?_slice, if_pos (by omega)]
        congr 1
        omega

theorem flatten_unflatten_demo : ∃ n k,
    4 * n ≤ 104 ∧ k ≤ 1 ∧ ∀ out : Out, 4 * n ≤ out.size → k ≤ out.count → ∃ ints,
      flatten (unflatten demoSystem true ⟨.empty, 0⟩ ⟨.ownData, 0, 0, 0, 0, 0, 1, 0, none⟩
          ⟨stream demoHandles demoBuffers, 104, [7], 1⟩).2.1
        (unflatten demoSystem true ⟨.empty, 0⟩ ⟨.ownData, 0, 0, 0, 0, 0, 1, 0, none⟩
          ⟨stream demoHandles demoBuffers, 104, [7], 1⟩).2.2.1 out =
        (0, ⟨out.buffer ++ ints, out.size - 4 * n, out.fds ++ [7].take k, out.count - k⟩) := by
  have hin : In.Backed ⟨stream demoHandles demoBuffers, 104, [7], 1⟩ := by
    constructor <;> decide
  have hu : unflatten demoSystem true ⟨.empty, 0⟩ ⟨.ownData, 0, 0, 0, 0, 0, 1, 0, none⟩
      ⟨stream demoHandles demoBuffers, 104, [7], 1⟩ = (0, _, _, _) := rfl
  obtain ⟨n, k, hn, hk, -, hout⟩ := flatten_unflatten hin hu
  refine ⟨n, k, hn, hk, fun out ho hc => ?_⟩
  obtain ⟨ints, hints, -, -⟩ := hout out ho hc
  exact ⟨ints, hints⟩

end Accepted

end Gralloc

end IntelCamera
