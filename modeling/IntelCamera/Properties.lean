import IntelCamera.Lib.Machine
import IntelCamera.Lib.Text

/-!
# Properties — the configuration file behind `property_get` (`Properties.cpp`)

The first call of `property_get` reads `/etc/camerahal.cfg` line by line into a map; every call copies
a value of the map, or the default, into a buffer of `PROPERTY_VALUE_MAX` characters.  A text is read
as it is written: the last line `key=value` counts (`yields_iff`).  The length of a value goes
through an `int`, so that a value of two gigabytes is not cut to the size of the buffer
(`copyOut_iff`).

The characters are bytes.  Keys and defaults are C strings, the buffer and the key are not `NULL`.
-/

namespace IntelCamera

open Lib

namespace Properties

/-- `'\n'`. -/
def newline : UInt8 := 10

/-- `'='`. -/
def equals : UInt8 := 61

/-- `'#'`. -/
def hash : UInt8 := 35

/-- `PROPERTY_VALUE_MAX`. -/
def propertyValueMax : Int32 := 92

/-- The name of the configuration file. -/
def cfgFile : String := "/etc/camerahal.cfg"

/-- The readable files. -/
abbrev Files := String → Option (List UInt8)

/-- `sPropertiesInitialized` and `sProperties`. -/
structure State where
  initialized : Bool
  properties : List UInt8 → Option (List UInt8)

/-- The key and the value that a line adds to the map, if any: the body of the loop. -/
def setting (line : List UInt8) : Option (List UInt8 × List UInt8) :=
  match getline equals line with
  | none => none
  | some (key, isLine) =>
    if key.head? = some hash then none else
    match getline newline isLine with
    | none => none
    | some (value, _) => some (key, value)

/-- `propertyInitializeValues`.  A file that cannot be opened has no lines. -/
def propertyInitializeValues (files : Files) (filename : String) (s : State) : State :=
  if filename.isEmpty then s else
  ⟨true, foldLines (settle setting) newline s.properties ((files filename).getD [])⟩

/-- What `property_get` stores from `value[0]` on, and what it returns. -/
structure Stored where
  bytes : List UInt8
  length : Int32
deriving DecidableEq, Repr

/-- The end of `property_get`: the copy of `cfgValue`. -/
def copyOut (cfgValue : List UInt8) : Stored :=
  let len := intT (UInt64.ofNat cfgValue.length)
  let len := if len ≥ propertyValueMax then propertyValueMax - 1 else len
  let copyLength := min (sizeT len).toNat cfgValue.length
  ⟨cfgValue.take copyLength ++ [0], len⟩

/-- `property_get`. -/
def propertyGet (files : Files) (s : State) (key : List UInt8) (defaultValue : Option (List UInt8)) :
    Stored × State :=
  let s := if s.initialized then s else propertyInitializeValues files cfgFile s
  let cfgValue := match s.properties key with
    | some value => value
    | none => defaultValue.getD []
  (copyOut cfgValue, s)

/-- Before the first call. -/
def initState : State := ⟨false, fun _ => none⟩

/-- A call, with the files at that time. -/
structure Call where
  files : Files
  key : List UInt8
  defaultValue : Option (List UInt8)

/-- The state after some calls. -/
def after (cs : List Call) : State :=
  cs.foldl (fun s c => (propertyGet c.files s c.key c.defaultValue).2) initState

/-! ### What the text means -/

/-- The line sets `key` to `value`. -/
structure IsSetting (key value line : List UInt8) : Prop where
  not_comment : line.head? ≠ some hash
  form : line = key ++ equals :: value
  first : equals ∉ key
  nonempty : value ≠ []

/-- The value of a key: that of the last line that sets it, or else the default. -/
def Yields (text key : List UInt8) (defaultValue : Option (List UInt8)) (v : List UInt8) : Prop :=
  (∃ pre line post, text.splitOn newline = pre ++ line :: post ∧ IsSetting key v line ∧
    ∀ l ∈ post, ∀ v', ¬ IsSetting key v' l) ∨
  ((∀ l ∈ text.splitOn newline, ∀ v', ¬ IsSetting key v' l) ∧ v = defaultValue.getD [])

/-- What is promised of a call. -/
def Promised (text key : List UInt8) (defaultValue : Option (List UInt8)) (r : Stored) : Prop :=
  ∃ v, Yields text key defaultValue v ∧ r.bytes = v.take 91 ++ [0] ∧
    r.length.toInt = (v.take 91).length ∧ r.bytes.length ≤ 92

/-! ### The parser -/

theorem setting_eq_some_iff {line key value : List UInt8} (hline : newline ∉ line) :
    setting line = some (key, value) ↔ IsSetting key value line := by
  unfold setting
  rcases cut_cases equals line with hd | ⟨k, v, hk, rfl⟩
  · -- no `=`: the value cannot be read
    have hnone : ¬ IsSetting key value line := by
      intro h
      apply hd
      rw [h.form]
      simp
    refine iff_of_false ?_ hnone
    rcases eq_or_ne line [] with rfl | hne
    · exact nofun
    · rw [getline_of_not_mem hd hne]
      dsimp only
      split_ifs
      · exact nofun
      · exact nofun
  · rw [getline_append hk]
    dsimp only
    have hv : newline ∉ v := by
      intro hmem
      exact hline (List.mem_append_right _ (List.mem_cons_of_mem _ hmem))
    have hhead : (k ++ equals :: v).head? = some hash ↔ k.head? = some hash := by
      cases k with
      | nil => exact iff_of_false (by simp [equals, hash]) (by simp)
      | cons c k => simp
    split_ifs with hc
    · refine iff_of_false nofun ?_
      intro h
      exact h.not_comment (hhead.mpr hc)
    · rcases eq_or_ne v [] with rfl | hne
      · refine iff_of_false nofun ?_
        intro h
        obtain ⟨-, hv'⟩ := cut_unique hk h.first h.form
        exact h.nonempty hv'.symm
      · rw [getline_of_not_mem hv hne]
        dsimp only
        constructor
        · intro h
          cases h
          exact ⟨mt hhead.mp hc, rfl, hk, hne⟩
        · intro h
          obtain ⟨rfl, rfl⟩ := cut_unique hk h.first h.form
          rfl

/-- The map that is read from a text. -/
def load (text : List UInt8) : List UInt8 → Option (List UInt8) :=
  foldLines (settle setting) newline (fun _ => none) text

theorem load_eq (text : List UInt8) :
    load text = (text.splitOn newline).foldl (settle setting) fun _ => none :=
  foldLines_eq (fun _ => rfl) _ text

/-- **The text is read as it is written**: the value of a key, if the map has it, and otherwise the
default. -/
theorem yields_iff {text key v : List UInt8} {defaultValue : Option (List UInt8)} :
    Yields text key defaultValue v ↔ (load text key).getD (defaultValue.getD []) = v := by
  have hset : ∀ l ∈ text.splitOn newline, ∀ v', setting l = some (key, v') ↔ IsSetting key v' l :=
    fun l hl v' => setting_eq_some_iff (not_mem_of_mem_splitOn hl)
  have hlast : ∀ v, LastSet setting key v (text.splitOn newline) ↔
      ∃ pre line post, text.splitOn newline = pre ++ line :: post ∧ IsSetting key v line ∧
        ∀ l ∈ post, ∀ v', ¬ IsSetting key v' l := by
    intro v
    unfold LastSet
    refine exists_congr fun pre => exists_congr fun line => exists_congr fun post =>
      and_congr_right fun heq => ?_
    have hmem : ∀ l, l = line ∨ l ∈ post → l ∈ text.splitOn newline := by
      intro l hl
      rw [heq]
      exact List.mem_append_right _ (List.mem_cons.mpr hl)
    refine and_congr (hset line (hmem line (Or.inl rfl)) v) ?_
    exact forall₂_congr fun l hl => forall_congr' fun v' => not_congr (hset l (hmem l (Or.inr hl)) v')
  have hnone : (∀ l ∈ text.splitOn newline, ∀ v', setting l ≠ some (key, v')) ↔
      ∀ l ∈ text.splitOn newline, ∀ v', ¬ IsSetting key v' l :=
    forall₂_congr fun l hl => forall_congr' fun v' => not_congr (hset l hl v')
  unfold Yields
  rw [← hlast, ← hnone, ← foldl_settle_eq_some_iff, ← foldl_settle_eq_none_iff, ← load_eq]
  cases load text key with
  | none => simp [eq_comm]
  | some w => simp

/-! ### The copy -/

/-- The length is not changed by the `int`, or is still one that does not fit in the buffer. -/
def LengthKept (n : ℕ) : Prop := n ≤ 91 ∨ 91 ≤ (n : ℤ).bmod (2 ^ 32)

/-- The `int` that a length becomes. -/
theorem toInt_len (n : ℕ) : (intT (UInt64.ofNat n)).toInt = (n : ℤ).bmod (2 ^ 32) := by
  rw [toInt_intT, UInt64.toNat_ofNat']
  have hmod : ((n % 2 ^ 64 : ℕ) : ℤ) % (2 ^ 32 : ℕ) = (n : ℤ) % (2 ^ 32 : ℕ) := by omega
  rw [Int.bmod_def, Int.bmod_def, hmod]

/-- **When a value is cut to the size of the buffer.** -/
theorem copyOut_iff (v : List UInt8) :
    ((copyOut v).bytes = v.take 91 ++ [0] ∧ (copyOut v).length.toInt = (v.take 91).length ∧
      (copyOut v).bytes.length ≤ 92) ↔ LengthKept v.length := by
  have hlen := toInt_len v.length
  have hlo : -2 ^ 31 ≤ (v.length : ℤ).bmod (2 ^ 32) := Int.le_bmod (by norm_num)
  have hself : v.length < 2 ^ 31 → (v.length : ℤ).bmod (2 ^ 32) = v.length :=
    fun h => bmod_of_fits ⟨by omega, by omega⟩
  have hmax : propertyValueMax.toInt = 92 := by decide
  have htake : (v.take 91).length = min 91 v.length := List.length_take
  unfold copyOut LengthKept
  dsimp only
  by_cases hbig : intT (UInt64.ofNat v.length) ≥ propertyValueMax
  · -- the `int` is seen to be too large
    rw [if_pos hbig]
    have h92 : 92 ≤ (v.length : ℤ).bmod (2 ^ 32) := by
      rw [ge_iff_le, Int32.le_iff_toInt_le, hmax, hlen] at hbig
      exact hbig
    have hcopy : (sizeT (propertyValueMax - 1)).toNat = 91 := by decide
    have hret : (propertyValueMax - 1).toInt = 91 := by decide
    have hlong : 91 ≤ v.length := by omega
    rw [hcopy, hret, min_eq_left hlong, List.length_append, htake]
    refine iff_of_true ⟨rfl, ?_, ?_⟩ ?_
    · omega
    · rw [List.length_singleton]
      omega
    · omega
  · rw [if_neg hbig, hlen, htake]
    have h92 : (v.length : ℤ).bmod (2 ^ 32) < 92 := by
      rw [ge_iff_le, Int32.le_iff_toInt_le, hmax, hlen] at hbig
      omega
    constructor
    · rintro ⟨-, hret, -⟩
      omega
    · intro hkept
      -- the `int` is the length, or 91
      have hsize : (sizeT (intT (UInt64.ofNat v.length))).toNat = min 91 v.length := by
        have h := toNat_sizeT (intT (UInt64.ofNat v.length))
        rw [hlen] at h
        omega
      rw [hsize, min_assoc, min_self, List.length_append, List.length_take, List.length_singleton]
      refine ⟨?_, ?_, ?_⟩
      · rw [← List.take_eq_take_min]
      · omega
      · omega

/-! ### Calls -/

/-- The configuration at the time of the first call. -/
def firstText : List Call → List UInt8
  | [] => []
  | c :: _ => (c.files cfgFile).getD []

/-- A call after the file is read does not read it again. -/
theorem propertyGet_initialized (files : Files) {s : State} (hs : s.initialized = true)
    (key : List UInt8) (defaultValue : Option (List UInt8)) :
    propertyGet files s key defaultValue =
      (copyOut ((s.properties key).getD (defaultValue.getD [])), s) := by
  unfold propertyGet
  rw [if_pos hs]
  dsimp only
  cases s.properties key with
  | none => rfl
  | some v => rfl

theorem after_cons (c : Call) (cs : List Call) :
    after (c :: cs) = ⟨true, load (firstText (c :: cs))⟩ := by
  induction cs using List.reverseRecOn with
  | nil => rfl
  | append_singleton cs c' ih =>
    rw [← List.cons_append]
    unfold after at ih ⊢
    rw [List.foldl_append, ih, List.foldl_cons, List.foldl_nil, propertyGet_initialized _ rfl]
    rfl

/-- **Every call of a run** sees the file as it was at the first one. -/
theorem propertyGet_after (cs : List Call) (c : Call) :
    (propertyGet c.files (after cs) c.key c.defaultValue).1 =
      copyOut ((load (firstText (cs ++ [c])) c.key).getD (c.defaultValue.getD [])) := by
  cases cs with
  | nil =>
    have hread : propertyGet c.files (after []) c.key c.defaultValue =
        propertyGet c.files ⟨true, load (firstText ([] ++ [c]))⟩ c.key c.defaultValue := rfl
    rw [hread, propertyGet_initialized _ rfl]
  | cons c₀ cs =>
    rw [after_cons, propertyGet_initialized _ rfl]
    rfl

/-- What a result is promised to be depends on the length of the value only. -/
theorem promised_copyOut_iff {text key : List UInt8} {defaultValue : Option (List UInt8)} :
    Promised text key defaultValue (copyOut ((load text key).getD (defaultValue.getD []))) ↔
      ∀ v, Yields text key defaultValue v → LengthKept v.length := by
  unfold Promised
  constructor
  · rintro ⟨v, hv, hcopy⟩ w hw
    rw [yields_iff] at hv hw
    rw [hv, copyOut_iff] at hcopy
    rwa [← hw, hv]
  · intro h
    have hv := yields_iff.mpr (Eq.refl ((load text key).getD (defaultValue.getD [])))
    exact ⟨_, hv, (copyOut_iff _).mpr (h _ hv)⟩

/-- **The calls of `property_get`**: a result is what the text promises exactly if the length of the
value survives the `int`, and asking again gives the same result whatever has become of the file. -/
theorem propertyGet_promised_iff (cs cs' : List Call) (c : Call) (files : Files) :
    (Promised (firstText (cs ++ [c])) c.key c.defaultValue
        (propertyGet c.files (after cs) c.key c.defaultValue).1 ↔
      ∀ v, Yields (firstText (cs ++ [c])) c.key c.defaultValue v → LengthKept v.length) ∧
    (propertyGet files (after (cs ++ c :: cs')) c.key c.defaultValue).1 =
      (propertyGet c.files (after cs) c.key c.defaultValue).1 := by
  refine ⟨?_, ?_⟩
  · rw [propertyGet_after]
    exact promised_copyOut_iff
  · have hlater := propertyGet_after (cs ++ c :: cs') ⟨files, c.key, c.defaultValue⟩
    have hfirst : firstText (cs ++ c :: cs' ++ [⟨files, c.key, c.defaultValue⟩]) =
        firstText (cs ++ [c]) := by
      cases cs with
      | nil => rfl
      | cons c₀ cs => rfl
    rw [hfirst] at hlater
    rw [propertyGet_after cs c]
    exact hlater

/-- A line of two gigabytes. -/
def longLine : List UInt8 := 107 :: equals :: List.replicate (2 ^ 31) 97

/-- The line sets the key `k` to a value whose length is negative as an `int`. -/
theorem propertyGet_not_promised : ¬ ∀ (files : Files) (key : List UInt8)
    (defaultValue : Option (List UInt8)),
    Promised ((files cfgFile).getD []) key defaultValue
      (propertyGet files initState key defaultValue).1 := by
  intro hall
  have hnl : newline ∉ longLine := by
    intro hmem
    rcases List.mem_cons.mp hmem with h | hmem
    · exact absurd h (by decide)
    rcases List.mem_cons.mp hmem with h | hmem
    · exact absurd h (by decide)
    · exact absurd (List.eq_of_mem_replicate hmem) (by decide)
  have hyields : Yields longLine [107] none (List.replicate (2 ^ 31) 97) := by
    refine Or.inl ⟨[], longLine, [], List.splitOn_eq_singleton hnl, ⟨?_, rfl, by decide, ?_⟩, nofun⟩
    · show some 107 ≠ some hash
      decide
    · exact List.ne_nil_of_length_pos (by rw [List.length_replicate]; norm_num)
  have h := hall (fun _ => some longLine) [107] none
  rw [show initState = after [] from rfl,
    propertyGet_after [] ⟨fun _ => some longLine, [107], none⟩] at h
  have hkept := promised_copyOut_iff.mp h _ hyields
  rw [List.length_replicate] at hkept
  unfold LengthKept at hkept
  rcases hkept with hkept | hkept
  · norm_num at hkept
  · exact absurd hkept (by decide)

end Properties

end IntelCamera
