import IntelCamera.Gralloc.Alloc
import IntelCamera.Lib.Runs
import IntelCamera.Lib.Slots
import Mathlib.Data.List.InsertIdx

/-!
# Gralloc.Framebuffer — the slots of the framebuffer (`gralloc.cpp`)

The framebuffer is cut into `numBuffers` slots of `bufferSize` bytes.  An allocation scans the mask for
a free slot and moves the address along; `gralloc_free` finds the slot again by a division of the
address; and that no slot is free is decided by comparing the mask with a number.  `SlotInv` keeps the
three together over every run of allocations and frees.

Logging is left out.  In `framebuffer.cpp`, where `LOG_TAG` is `NULL`, it ends the process: the runs are
those of a framebuffer that is mapped.
-/

namespace IntelCamera

open Lib

namespace Gralloc

/-- `gralloc_free`: the status and the module.  `terminateBuffer` and `close` do not touch the
module. -/
def grallocFree (m : PrivateModule) (hnd : PrivateHandle) : Int32 × PrivateModule :=
  -- `private_handle_t::validate`
  if hnd.magic ≠ 0x3141592 then (-22, m) else
  if hnd.flags &&& privFlagsFramebuffer ≠ 0 then
    let framebuffer := m.framebuffer.getD (.new (-1) 0 0)
    let index := intT ((hnd.base - framebuffer.base) / m.bufferSize)
    (0, { m with bufferMask := m.bufferMask &&& (~~~(1 <<< index : Int32)).toUInt32 })
  else (0, m)

/-! ### One bit of the mask -/

section Bits

variable {mask : UInt32} {i j : ℕ}

theorem toNat_one_shiftLeft (hi : i < 64) : (1 <<< UInt64.ofNat i : UInt64).toNat = 2 ^ i := by
  have h1 : (1 : UInt64).toNat = 1 := rfl
  have hpow : 2 ^ i < 2 ^ 64 := Nat.pow_lt_pow_right (by norm_num) hi
  have hi' : (UInt64.ofNat i).toNat = i := by
    rw [UInt64.toNat_ofNat']
    exact Nat.mod_eq_of_lt (by omega)
  rw [UInt64.toNat_shiftLeft, h1, hi', Nat.mod_eq_of_lt hi, Nat.shiftLeft_eq, Nat.one_mul,
    Nat.mod_eq_of_lt hpow]

/-- The test of a bit. -/
theorem bit_free_iff (hi : i < 64) :
    mask.toUInt64 &&& (1 <<< UInt64.ofNat i) = 0 ↔ mask.toNat.testBit i = false := by
  rw [← UInt64.toNat_inj, UInt64.toNat_and, toNat_one_shiftLeft hi, UInt32.toNat_toUInt64,
    Nat.and_two_pow]
  cases mask.toNat.testBit i with
  | false => simp
  | true => simp

/-- Setting a bit. -/
theorem toNat_setBit (hi : i < 32) :
    (mask ||| (1 <<< UInt64.ofNat i : UInt64).toUInt32).toNat = mask.toNat ||| 2 ^ i := by
  have hpow : 2 ^ i < 2 ^ 32 := Nat.pow_lt_pow_right (by norm_num) hi
  rw [UInt32.toNat_or, UInt64.toNat_toUInt32, toNat_one_shiftLeft (by omega), Nat.mod_eq_of_lt hpow]

/-- The comparison with the largest mask. -/
theorem full_test_iff {n : UInt32} (hn : n.toNat ≤ 32) :
    mask.toUInt64 ≥ (1 <<< n.toUInt64) - 1 ↔ 2 ^ n.toNat - 1 ≤ mask.toNat := by
  have hofNat : n.toUInt64 = UInt64.ofNat n.toNat := by
    apply UInt64.toNat_inj.mp
    rw [UInt32.toNat_toUInt64, UInt64.toNat_ofNat']
    exact (Nat.mod_eq_of_lt (by omega)).symm
  have hpow : 0 < 2 ^ n.toNat := Nat.two_pow_pos _
  have hsub : ((1 <<< n.toUInt64 : UInt64) - 1).toNat = 2 ^ n.toNat - 1 := by
    rw [hofNat, UInt64.toNat_sub_of_le, toNat_one_shiftLeft (by omega)]
    · rfl
    · rw [UInt64.le_iff_toNat_le, toNat_one_shiftLeft (by omega)]
      exact hpow
  rw [ge_iff_le, UInt64.le_iff_toNat_le, hsub, UInt32.toNat_toUInt64]

/-- Clearing a bit, the sign bit of the `int` included. -/
theorem testBit_clearBit (hi : i < 32) :
    (mask &&& (~~~(1 <<< Int32.ofNat i : Int32)).toUInt32).toNat.testBit j =
      (mask.toNat.testBit j && decide (j ≠ i)) := by
  have hmask : ∀ i : Fin 32, (~~~(1 <<< Int32.ofNat i : Int32)).toUInt32.toNat =
      2 ^ 32 - (2 ^ (i : ℕ) + 1) := by decide
  have hlt : 2 ^ i < 2 ^ 32 := Nat.pow_lt_pow_right (by norm_num) hi
  rw [UInt32.toNat_and, hmask ⟨i, hi⟩, Nat.testBit_and, Nat.testBit_two_pow_sub_succ hlt,
    Nat.testBit_two_pow]
  by_cases hj : j < 32
  · simp [hj, eq_comm]
  · have hz : mask.toNat.testBit j = false :=
      Nat.testBit_lt_two_pow (lt_of_lt_of_le mask.toNat_lt (Nat.pow_le_pow_right (by norm_num)
        (by omega)))
    simp [hz]

end Bits

/-! ### The three operations -/

/-- The address of a slot. -/
def slotBase (base bufferSize : UInt64) (i : ℕ) : UInt64 := base + UInt64.ofNat i * bufferSize

theorem slotBase_succ (base bufferSize : UInt64) (i : ℕ) :
    slotBase base bufferSize i + bufferSize = slotBase base bufferSize (i + 1) := by
  unfold slotBase
  rw [UInt64.ofNat_add, UInt64.add_mul, UInt64.add_assoc]
  congr 2
  exact (UInt64.one_mul _).symm

/-- The scan finds a free slot, if there is one, and the address has moved to it. -/
theorem findFreeSlot_spec {mask : UInt32} {n : ℕ} (base bufferSize : UInt64) (hn : n ≤ 32) (len k : ℕ)
    (hlen : k + len = n) (hfree : ∃ i, k ≤ i ∧ i < n ∧ mask.toNat.testBit i = false) :
    ∃ i < n, mask.toNat.testBit i = false ∧
      findFreeSlot mask bufferSize (List.range' k len) (slotBase base bufferSize k) =
        (slotBase base bufferSize i, mask ||| (1 <<< UInt64.ofNat i : UInt64).toUInt32) := by
  obtain ⟨i, hki, hin, hi⟩ := hfree
  induction len generalizing k with
  | zero => omega
  | succ len ih =>
    rw [List.range'_succ]
    unfold findFreeSlot
    by_cases hk : mask.toNat.testBit k = false
    · refine ⟨k, by omega, hk, ?_⟩
      rw [if_pos ((bit_free_iff (by omega)).mpr hk)]
    · have hne : k ≠ i := by
        rintro rfl
        exact hk hi
      obtain ⟨r, hr, hbit, heq⟩ := ih (k + 1) (by omega) (by omega)
      refine ⟨r, hr, hbit, ?_⟩
      rw [if_neg (mt (bit_free_iff (by omega)).mp hk), slotBase_succ]
      exact heq

/-- The module has its framebuffer, with slots that an `int` can count. -/
structure Mapped (m : PrivateModule) (fb : PrivateHandle) : Prop where
  framebuffer : m.framebuffer = some fb
  two_le : 2 ≤ m.numBuffers.toNat
  le_32 : m.numBuffers.toNat ≤ 32
  size_pos : 0 < m.bufferSize.toNat
  size_lt : m.numBuffers.toNat * m.bufferSize.toNat < 2 ^ 31

/-- The handle is one of slot `i`. -/
structure AtSlot (m : PrivateModule) (fb hnd : PrivateHandle) (i : ℕ) : Prop where
  lt : i < m.numBuffers.toNat
  magic : hnd.magic = 0x3141592
  flags : hnd.flags = privFlagsFramebuffer
  base : hnd.base = slotBase fb.base m.bufferSize i
  offset : hnd.offset.toInt = i * m.bufferSize.toNat

section Operations

variable {m : PrivateModule} {fb : PrivateHandle}

theorem Mapped.slot_lt (hm : Mapped m fb) {i : ℕ} (hi : i < m.numBuffers.toNat) :
    i * m.bufferSize.toNat < 2 ^ 31 := by
  calc i * m.bufferSize.toNat ≤ m.numBuffers.toNat * m.bufferSize.toNat :=
        Nat.mul_le_mul_right _ hi.le
    _ < 2 ^ 31 := hm.size_lt

/-- The distance of a slot from the start of the framebuffer. -/
theorem Mapped.toNat_slotBase_sub (hm : Mapped m fb) {i : ℕ} (hi : i < m.numBuffers.toNat) :
    (slotBase fb.base m.bufferSize i - fb.base).toNat = i * m.bufferSize.toNat := by
  have hlt := hm.slot_lt hi
  have hsmall : (UInt64.ofNat i).toNat = i := by
    rw [UInt64.toNat_ofNat']
    exact Nat.mod_eq_of_lt (by have := hm.le_32; omega)
  have hsub : slotBase fb.base m.bufferSize i - fb.base = UInt64.ofNat i * m.bufferSize := by
    unfold slotBase
    rw [UInt64.add_comm, UInt64.add_sub_cancel]
  rw [hsub, UInt64.toNat_mul, hsmall]
  exact Nat.mod_eq_of_lt (by omega)

theorem toInt_intT_of_lt {x : UInt64} (h : x.toNat < 2 ^ 31) : (intT x).toInt = x.toNat := by
  rw [toInt_intT]
  exact bmod_of_fits ⟨by omega, by omega⟩

/-- **The allocation of a slot** fails on a full mask, and takes a free slot otherwise. -/
theorem grallocAllocFramebuffer_cases (sys : System) (hm : Mapped m fb) (size : UInt64) {l : List ℕ}
    (hl : Marks m.numBuffers.toNat m.bufferMask.toNat l) :
    (l.length = m.numBuffers.toNat ∧ grallocAllocFramebuffer sys m size = (.error (-12), m)) ∨
    (l.length ≠ m.numBuffers.toNat ∧ ∃ hnd i mask,
      grallocAllocFramebuffer sys m size = (.ok hnd, { m with bufferMask := mask }) ∧
      AtSlot m fb hnd i ∧ Marks m.numBuffers.toNat mask.toNat (l ++ [i])) := by
  have hne : m.numBuffers ≠ 1 := by
    intro h
    have := hm.two_le
    rw [h] at this
    exact absurd this (by decide)
  have hcond : ¬ (0 : Int32) < 0 := by decide
  by_cases hfull : l.length = m.numBuffers.toNat
  · left
    refine ⟨hfull, ?_⟩
    have htest : m.bufferMask.toUInt64 ≥ (1 <<< m.numBuffers.toUInt64) - 1 :=
      (full_test_iff hm.le_32).mpr (hl.full_iff.mpr hfull)
    unfold grallocAllocFramebuffer
    simp only [hm.framebuffer, hcond, if_false, hne, htest, if_true]
  · right
    refine ⟨hfull, ?_⟩
    have htest : ¬ m.bufferMask.toUInt64 ≥ (1 <<< m.numBuffers.toUInt64) - 1 :=
      mt (full_test_iff hm.le_32).mp (mt hl.full_iff.mp hfull)
    obtain ⟨i, hi, hbit⟩ := hl.exists_free hfull
    obtain ⟨i, hi, hbit, hfind⟩ := findFreeSlot_spec fb.base m.bufferSize hm.le_32
      m.numBuffers.toNat 0 (by omega) ⟨i, by omega, hi, hbit⟩
    have hstart : slotBase fb.base m.bufferSize 0 = fb.base := by
      show fb.base + 0 * m.bufferSize = fb.base
      rw [UInt64.zero_mul, UInt64.add_zero]
    rw [hstart, ← List.range_eq_range'] at hfind
    refine ⟨{ PrivateHandle.new (sys.dup fb.fd) (intT size) privFlagsFramebuffer with
      base := slotBase fb.base m.bufferSize i
      offset := intT (slotBase fb.base m.bufferSize i - fb.base) }, i,
      m.bufferMask ||| (1 <<< UInt64.ofNat i : UInt64).toUInt32, ?_, ⟨hi, rfl, rfl, rfl, ?_⟩, ?_⟩
    · unfold grallocAllocFramebuffer
      simp only [hm.framebuffer, hcond, if_false, hne, htest, Option.getD_some, hfind]
    · show (intT (slotBase fb.base m.bufferSize i - fb.base)).toInt = _
      have hsub := hm.toNat_slotBase_sub hi
      have hlt := hm.slot_lt hi
      rw [toInt_intT_of_lt (by omega), hsub]
      push_cast
      rfl
    · rw [toNat_setBit (by have := hm.le_32; omega)]
      exact hl.take hi hbit

/-- **The free of a slot** clears its bit. -/
theorem grallocFree_slot (hm : Mapped m fb) {hnd : PrivateHandle} {i k : ℕ} {l : List ℕ}
    (hl : Marks m.numBuffers.toNat m.bufferMask.toNat l) (hk : l[k]? = some i)
    (hs : AtSlot m fb hnd i) :
    ∃ mask, grallocFree m hnd = (0, { m with bufferMask := mask }) ∧
      Marks m.numBuffers.toNat mask.toNat (l.eraseIdx k) := by
  have h32 : i < 32 := lt_of_lt_of_le hs.lt hm.le_32
  have hindex : intT ((slotBase fb.base m.bufferSize i - fb.base) / m.bufferSize) = Int32.ofNat i := by
    have hdiv : ((slotBase fb.base m.bufferSize i - fb.base) / m.bufferSize).toNat = i := by
      rw [UInt64.toNat_div, hm.toNat_slotBase_sub hs.lt, Nat.mul_div_cancel _ hm.size_pos]
    apply Int32.toInt_inj.mp
    rw [toInt_intT_of_lt (by omega), hdiv, Int32.toInt_ofNat_of_lt (by omega)]
  refine ⟨_, ?_, hl.give hk fun j => testBit_clearBit h32⟩
  unfold grallocFree
  have hflag : privFlagsFramebuffer &&& privFlagsFramebuffer ≠ 0 := by decide
  rw [if_neg (not_not.mpr hs.magic), hs.flags, if_pos hflag, hm.framebuffer, hs.base]
  dsimp only [Option.getD_some]
  rw [hindex]

end Operations

/-! ### Runs -/

/-- The module and the live framebuffer handles, the oldest first. -/
structure FbState where
  module : PrivateModule
  live : List PrivateHandle
deriving DecidableEq, Repr

/-- The calls: `gralloc_alloc`, and `gralloc_free` of the live handle at a place. -/
inductive FbCall
  | alloc (w h format usage : Int32)
  | free (k : ℕ)
deriving DecidableEq, Repr

/-- A call.  A freed handle is live no more, so it is not freed again. -/
def fbStep (sys : System) (s : FbState) : FbCall → Option FbState
  | .alloc w h format usage =>
    match grallocAlloc sys s.module w h format usage with
    | (.ok (hnd, _), m) => some ⟨m, s.live ++ [hnd]⟩
    | (.error _, m) => some ⟨m, s.live⟩
  | .free k => s.live[k]?.map fun hnd => ⟨(grallocFree s.module hnd).2, s.live.eraseIdx k⟩

/-- The allocations are those of the framebuffer. -/
def fbAllowed (_ : FbState) : FbCall → Prop
  | .alloc _ _ _ usage => usage &&& usageHwFb ≠ 0
  | .free _ => True

/-- No handle is live yet. -/
def FbStart (m : PrivateModule) (s : FbState) : Prop := s = ⟨m, []⟩

/-- The slot index `offset / bufferSize`. -/
def slotIndex (m : PrivateModule) (hnd : PrivateHandle) : ℤ := hnd.offset.toInt / m.bufferSize.toNat

theorem AtSlot.slotIndex_eq {m : PrivateModule} {fb hnd : PrivateHandle} {i : ℕ}
    (h : AtSlot m fb hnd i) (hm : Mapped m fb) : slotIndex m hnd = i := by
  have hpos := hm.size_pos
  unfold slotIndex
  rw [h.offset, Int.mul_ediv_cancel _ (by omega)]

/-- **The invariant**: only the mask changes, and the live handles have the slots of its bits. -/
structure SlotInv (m : PrivateModule) (fb : PrivateHandle) (s : FbState) : Prop where
  module_eq : s.module = { m with bufferMask := s.module.bufferMask }
  slots : ∀ hnd ∈ s.live, ∃ i, AtSlot m fb hnd i
  marks : Marks m.numBuffers.toNat s.module.bufferMask.toNat
    (s.live.map fun hnd => (slotIndex m hnd).toNat)

section Runs

variable {sys : System} {m : PrivateModule} {fb : PrivateHandle} {s s' : FbState}

/-- What the invariant says does not depend on the mask of `m`. -/
theorem Mapped.of_mask (hm : Mapped m fb) (mask : UInt32) : Mapped { m with bufferMask := mask } fb :=
  ⟨hm.framebuffer, hm.two_le, hm.le_32, hm.size_pos, hm.size_lt⟩

theorem SlotInv.exists_mask (hs : SlotInv m fb s) :
    ∃ mask live, s = ⟨{ m with bufferMask := mask }, live⟩ := by
  obtain ⟨mod, live⟩ := s
  exact ⟨mod.bufferMask, live, congrArg₂ FbState.mk hs.module_eq rfl⟩

theorem code_of_ofCode {format : Int32} {f : PixelFormat} (h : PixelFormat.ofCode format = some f) :
    f.code = format := by
  have hcode := List.find?_some h
  simpa using hcode

/-- An unsupported format is refused before anything else. -/
theorem grallocAlloc_unsupported {format : Int32} (hf : PixelFormat.ofCode format = none)
    (m : PrivateModule) (w h usage : Int32) :
    grallocAlloc sys m w h format usage = (.error (-22), m) := by
  unfold grallocAlloc
  rw [hf]

/-- An allocation from a state of the invariant. -/
theorem grallocAlloc_slot (hm : Mapped m fb) (hs : SlotInv m fb s) (w h : Int32) (f : PixelFormat)
    {usage : Int32} (hu : usage &&& usageHwFb ≠ 0) :
    (s.live.length = m.numBuffers.toNat ∧
      grallocAlloc sys s.module w h f.code usage = (.error (-12), s.module)) ∨
    (s.live.length ≠ m.numBuffers.toNat ∧ ∃ hnd stride i mask,
      grallocAlloc sys s.module w h f.code usage =
        (.ok (hnd, stride), { m with bufferMask := mask }) ∧
      AtSlot m fb hnd i ∧ Marks m.numBuffers.toNat mask.toNat
        (s.live.map (fun hnd => (slotIndex m hnd).toNat) ++ [i])) := by
  obtain ⟨mask, live, rfl⟩ := hs.exists_mask
  have hcases := grallocAllocFramebuffer_cases sys (hm.of_mask mask)
    (sizeT (w * f.bitsPerPixel) * sizeT h / 8) hs.marks
  rw [List.length_map] at hcases
  unfold grallocAlloc
  rw [ofCode_code]
  dsimp only
  rw [bitsPerRow_eq, if_pos hu]
  obtain ⟨hfull, halloc⟩ | ⟨hfree, hnd, i, mask', halloc, hat, hmask⟩ := hcases
  · left
    rw [halloc]
    exact ⟨hfull, rfl⟩
  · right
    rw [halloc]
    exact ⟨hfree, _, _, i, mask', rfl, ⟨hat.lt, hat.magic, hat.flags, hat.base, hat.offset⟩, hmask⟩

/-- **One call keeps the invariant.** -/
theorem SlotInv.step (hm : Mapped m fb) (hs : SlotInv m fb s) {c : FbCall} (hc : fbAllowed s c)
    (h : fbStep sys s c = some s') : SlotInv m fb s' := by
  cases c with
  | alloc w h' format usage =>
    cases hf : PixelFormat.ofCode format with
    | none =>
      unfold fbStep at h
      dsimp only at h
      rw [grallocAlloc_unsupported hf] at h
      obtain rfl := Option.some.inj h
      exact ⟨hs.module_eq, hs.slots, hs.marks⟩
    | some f =>
      obtain rfl := code_of_ofCode hf
      unfold fbStep at h
      dsimp only at h
      obtain ⟨-, halloc⟩ | ⟨-, hnd, stride, i, mask, halloc, hat, hmarks⟩ :=
        grallocAlloc_slot hm hs w h' f hc
      · rw [halloc] at h
        obtain rfl := Option.some.inj h
        exact ⟨hs.module_eq, hs.slots, hs.marks⟩
      · rw [halloc] at h
        obtain rfl := Option.some.inj h
        refine ⟨rfl, ?_, ?_⟩
        · intro x hx
          rcases List.mem_append.mp hx with hx | hx
          · exact hs.slots x hx
          · rw [List.mem_singleton.mp hx]
            exact ⟨i, hat⟩
        · rw [List.map_append, List.map_singleton, hat.slotIndex_eq hm]
          exact hmarks
  | free k =>
    obtain ⟨hnd, hk, rfl⟩ := Option.map_eq_some_iff.mp h
    obtain ⟨i, hat⟩ := hs.slots hnd (List.mem_of_getElem? hk)
    obtain ⟨mask, live, rfl⟩ := hs.exists_mask
    have hki : (live.map fun hnd => (slotIndex m hnd).toNat)[k]? = some i := by
      rw [List.getElem?_map, hk, Option.map_some, hat.slotIndex_eq hm]
      rfl
    obtain ⟨mask', hfree, hmarks⟩ := grallocFree_slot (hm.of_mask mask) hs.marks hki
      ⟨hat.lt, hat.magic, hat.flags, hat.base, hat.offset⟩
    dsimp only
    rw [hfree]
    refine ⟨rfl, fun x hx => hs.slots x (List.mem_of_mem_eraseIdx hx), ?_⟩
    rw [List.eraseIdx_map] at hmarks
    exact hmarks

/-- The module before any framebuffer is mapped. -/
def initModule : PrivateModule := ⟨none, 0, 0, 0, 0⟩

/-- A mapping that succeeds leaves a framebuffer whose slots are all free. -/
theorem mapFrameBufferLocked_ok (hmap : mapFrameBufferLocked sys initModule = (0, m))
    (h2 : 2 ≤ m.numBuffers.toNat) : m.bufferMask = 0 ∧ ∃ fb, m.framebuffer = some fb := by
  have hzero : ¬ 2 ≤ initModule.numBuffers.toNat := by decide
  have hfirst : initModule.framebuffer.isSome = false := rfl
  unfold mapFrameBufferLocked at hmap
  rw [hfirst, if_neg Bool.false_ne_true] at hmap
  cases hinfo : sys.fbDevice.info with
  | error err =>
    rw [hinfo] at hmap
    obtain rfl := congrArg Prod.snd hmap
    exact absurd h2 hzero
  | ok x =>
    obtain ⟨fd, finfo, info⟩ := x
    rw [hinfo] at hmap
    dsimp only at hmap
    split at hmap
    · obtain rfl := congrArg Prod.snd hmap
      exact ⟨rfl, _, rfl⟩
    · obtain rfl := congrArg Prod.snd hmap
      exact ⟨rfl, _, rfl⟩

variable (hmap : mapFrameBufferLocked sys initModule = (0, m)) (h2 : 2 ≤ m.numBuffers.toNat)
  (h32 : m.numBuffers.toNat ≤ 32) (hpos : 0 < m.bufferSize.toNat)
  (hsize : m.numBuffers.toNat * m.bufferSize.toNat < 2 ^ 31)

include hmap h2 h32 hpos hsize

/-- The invariant of every run. -/
theorem SlotInv.reach (hr : Reach (fbStep sys) fbAllowed (FbStart m) s) :
    ∃ fb, Mapped m fb ∧ SlotInv m fb s := by
  obtain ⟨hmask, fb, hfb⟩ := mapFrameBufferLocked_ok hmap h2
  have hm : Mapped m fb := ⟨hfb, h2, h32, hpos, hsize⟩
  refine ⟨fb, hm, ?_⟩
  refine hr.invariant ?_ ?_
  · rintro _ rfl
    refine ⟨rfl, by simp, ?_⟩
    show Marks m.numBuffers.toNat m.bufferMask.toNat []
    rw [hmask]
    exact Marks.empty _
  · intro s c s' _ hs hc hstep
    exact hs.step hm hc hstep

/-- **The framebuffer slots**: the bits of the mask are the slots of the live handles, no two of which
share a slot, and an allocation fails for lack of memory exactly if all slots are taken. -/
theorem framebuffer_slots (hr : Reach (fbStep sys) fbAllowed (FbStart m) s) :
    (∀ i : ℕ, s.module.bufferMask.toNat.testBit i = true ↔ ∃ hnd ∈ s.live, slotIndex m hnd = i) ∧
    (s.live.map PrivateHandle.offset).Nodup ∧
    (∀ hnd ∈ s.live, ∃ i < m.numBuffers.toNat, hnd.offset.toInt = i * m.bufferSize.toNat) ∧
    ∀ w h format usage : Int32, usage &&& usageHwFb ≠ 0 →
      (PixelFormat.ofCode format ≠ none →
        ((grallocAlloc sys s.module w h format usage).1 = .error (-12) ↔
          s.live.length = m.numBuffers.toNat)) ∧
      (PixelFormat.ofCode format = none →
        grallocAlloc sys s.module w h format usage = (.error (-22), s.module)) := by
  obtain ⟨fb, hm, hs⟩ := SlotInv.reach hmap h2 h32 hpos hsize hr
  refine ⟨?_, ?_, ?_, ?_⟩
  · intro i
    rw [hs.marks.bit, List.mem_map]
    refine exists_congr fun hnd => and_congr_right fun hmem => ?_
    obtain ⟨j, hj⟩ := hs.slots hnd hmem
    rw [hj.slotIndex_eq hm]
    omega
  · apply List.Nodup.of_map fun offset : Int32 => (offset.toInt / m.bufferSize.toNat).toNat
    rw [List.map_map]
    exact hs.marks.nodup
  · intro hnd hmem
    obtain ⟨i, hi⟩ := hs.slots hnd hmem
    exact ⟨i, hi.lt, hi.offset⟩
  · intro w h format usage hu
    refine ⟨?_, fun hf => grallocAlloc_unsupported hf s.module w h usage⟩
    intro hf
    obtain ⟨f, hf⟩ := Option.ne_none_iff_exists'.mp hf
    obtain rfl := code_of_ofCode hf
    obtain ⟨hfull, halloc⟩ | ⟨hfree, hnd, stride, i, mask, halloc, -, -⟩ :=
      grallocAlloc_slot hm hs w h f hu
    · rw [halloc]
      exact iff_of_true rfl hfull
    · rw [halloc]
      exact iff_of_false (by simp) hfree

end Runs

instance (s : FbState) : (c : FbCall) → Decidable (fbAllowed s c)
  | .alloc _ _ _ _ => inferInstanceAs (Decidable (_ ≠ _))
  | .free _ => inferInstanceAs (Decidable True)

/-- Two slots of 32 bytes: after two allocations, a free and another allocation both are taken. -/
theorem framebuffer_slots_demo : ∃ m s, mapFrameBufferLocked demoSystem initModule = (0, m) ∧
    Reach (fbStep demoSystem) fbAllowed (FbStart m) s ∧ s.live.map (·.offset) = [32, 0] ∧
    (grallocAlloc demoSystem s.module 4 2 1 0x1000).1 = .error (-12) := by
  have hmap : mapFrameBufferLocked demoSystem initModule =
      (0, (mapFrameBufferLocked demoSystem initModule).2) := rfl
  have hrun : (exec (fbStep demoSystem) fbAllowed ⟨(mapFrameBufferLocked demoSystem initModule).2, []⟩
      [.alloc 4 2 1 0x1000, .alloc 4 2 1 0x1000, .free 0, .alloc 4 2 1 0x1000]).map
      (fun s => s.live.map (·.offset)) = some [32, 0] := by decide
  have hinit : FbStart (mapFrameBufferLocked demoSystem initModule).2
      ⟨(mapFrameBufferLocked demoSystem initModule).2, []⟩ := rfl
  obtain ⟨s, hr, hlive⟩ := Reach.of_exec hinit hrun
  obtain ⟨-, -, -, h⟩ := framebuffer_slots hmap (by decide) (by decide) (by decide) (by decide) hr
  have hlen : s.live.length = 2 := by
    rw [← List.length_map PrivateHandle.offset, hlive]
    rfl
  exact ⟨_, s, hmap, hr, hlive, ((h 4 2 1 0x1000 (by decide)).1 (by decide)).mpr hlen⟩

end Gralloc

end IntelCamera
