import OpenUsb.OpenDevice

/-!
# DeviceData — the handles that `openusb_get_device_data` opens and closes

To read the strings of a device, the call borrows a handle that is open for it, or opens one of its own and closes it again.
All its failures behind `get_raw` share one label, which closes `hdev` once more unless it was borrowed.

* `leaves_handles_iff`: the open handles are left alone unless `hdev` was never set before that label.
-/

namespace OpenUsb.Opening

/-- One of the strings: its index, the value of `usbi_get_string`, and is its copy allocated. -/
structure StringRead where
  index : UInt8
  ret : ℤ
  alloc : Bool
  deriving DecidableEq, Repr

/-- How the steps of `openusb_get_device_data` end, and what `hdev` holds before it is set. -/
structure DataEnv where
  handle : Bool
  device : Bool
  alloc : Bool
  deviceDesc : ℤ
  manufacturer : StringRead
  product : StringRead
  serialnumber : StringRead
  opened : OpenEnv
  rawDesc : ℤ
  configDesc : ℤ
  rawAlloc : Bool
  junk : ℕ
  deriving DecidableEq, Repr

/-- A call: the arguments of its `openusb_close_device`, the handle of its own `openusb_open_device`, if that succeeded, and
its value with the state that it leaves, if it returns. -/
structure DataCall where
  closes : List ℕ := []
  obtained : Option ℕ := none
  result : Option (ℤ × OpenState)

namespace DataEnv

variable (env : DataEnv)

/-- Is a copy of a string not allocated? -/
def stringsFail : Bool :=
  [env.manufacturer, env.product, env.serialnumber].any fun s => s.index ≠ 0 ∧ 0 ≤ s.ret ∧ s.alloc = false

def noStrings : Bool := env.manufacturer.index = 0 ∧ env.product.index = 0 ∧ env.serialnumber.index = 0

/-- The error with which the part from `get_raw` on fails, if it does. -/
def rawFails : Option ℤ :=
  if env.rawDesc ≠ 0 then some env.rawDesc
  else if env.configDesc ≠ 0 then some env.configDesc
  else if env.rawAlloc = false then some OPENUSB_NO_RESOURCES
  else none

end DataEnv

/-- `if (!dev_found) { openusb_close_device(hdev); }`, on the way to a return with `ret`. -/
def closeUnlessFound (B : Backend) (found : Bool) (hdev : ℕ) (ret : ℤ) (s : OpenState) :
    List ℕ × Option (ℤ × OpenState) :=
  if found then ([], some (ret, s))
  else ([hdev], (openusbCloseDevice B s hdev).map fun c => (ret, c.2))

/-- From `get_raw` on. -/
def getRaw (B : Backend) (env : DataEnv) (found : Bool) (hdev : ℕ) (s : OpenState) : List ℕ × Option (ℤ × OpenState) :=
  match env.rawFails with
  | some ret => closeUnlessFound B found hdev ret s
  | none => ([], some (OPENUSB_SUCCESS, s))

/-- From the first string on. -/
def getStrings (B : Backend) (env : DataEnv) (found : Bool) (hdev : ℕ) (s : OpenState) :
    List ℕ × Option (ℤ × OpenState) :=
  if env.stringsFail then closeUnlessFound B found hdev OPENUSB_NO_RESOURCES s
  else
    let closed := closeUnlessFound B found hdev OPENUSB_SUCCESS s
    match closed.2 with
    | none => closed
    | some r =>
      let rest := getRaw B env found (if found then hdev else 0) r.2
      (closed.1 ++ rest.1, rest.2)

/-- `openusb_get_device_data`. -/
def openusbGetDeviceData (B : Backend) (s : OpenState) (devid : ℕ) (env : DataEnv) : DataCall :=
  if !env.handle then { result := some (OPENUSB_BADARG, s) }
  else if !env.device then { result := some (OPENUSB_BADARG, s) }
  else if !env.alloc then { result := some (OPENUSB_NO_RESOURCES, s) }
  else if env.deviceDesc ≠ 0 then { result := some (env.deviceDesc, s) }
  else if env.noStrings then
    let raw := getRaw B env false env.junk s
    { closes := raw.1, result := raw.2 }
  else match s.devHandles.find? fun h => h.idev = devid with
    | some found =>
      let rest := getStrings B env true found.handle s
      { closes := rest.1, result := rest.2 }
    | none =>
      match openusbOpenDevice B s devid true env.opened with
      | none => { result := none }
      | some r =>
        if r.ret = OPENUSB_NOT_SUPPORTED then
          let raw := getRaw B env false r.dev r.state
          { closes := raw.1, result := raw.2 }
        else if r.ret ≠ 0 then { result := some (OPENUSB_PLATFORM_FAILURE, r.state) }
        else
          let rest := getStrings B env false r.dev r.state
          { closes := rest.1, obtained := some r.dev, result := rest.2 }

/-! ## The handles that are left -/

/-- The open handles are those from before, and no handle is closed that the call did not open. -/
structure LeavesHandles (s : OpenState) (c : DataCall) : Prop where
  closes : ∀ v ∈ c.closes, v ≠ 0 → c.obtained = some v
  devHandles : ∀ r, c.result = some r → r.2.devHandles = s.devHandles

/-- The part from `get_raw` on is reached without a string, and fails, while `hdev` happens to hold a handle. -/
structure ClosesJunk (env : DataEnv) : Prop where
  handle : env.handle = true
  device : env.device = true
  alloc : env.alloc = true
  deviceDesc : env.deviceDesc = 0
  noStrings : env.noStrings = true
  rawFails : env.rawFails ≠ none
  junk : env.junk ≠ 0

section

variable {B : Backend} {s t : OpenState} {devid hdev : ℕ} {env : DataEnv} {found : Bool} {ret : ℤ}

/-- What is closed when the handle is borrowed, or there is none. -/
theorem closeUnlessFound_none (h : found = true ∨ hdev = 0) :
    (∀ v ∈ (closeUnlessFound B found hdev ret s).1, v = 0) ∧ (closeUnlessFound B found hdev ret s).2 = some (ret, s) := by
  unfold closeUnlessFound
  by_cases hfound : found = true
  · rw [if_pos hfound]
    exact ⟨nofun, rfl⟩
  · obtain rfl := h.resolve_left hfound
    rw [if_neg hfound]
    refine ⟨fun v hv => List.mem_singleton.mp hv, ?_⟩
    rw [openusbCloseDevice, if_pos rfl]
    rfl

theorem getRaw_none (h : found = true ∨ hdev = 0) : (∀ v ∈ (getRaw B env found hdev s).1, v = 0) ∧
    ∃ ret, (getRaw B env found hdev s).2 = some (ret, s) := by
  unfold getRaw
  cases env.rawFails with
  | none => exact ⟨nofun, _, rfl⟩
  | some ret => exact ⟨(closeUnlessFound_none h).1, ret, (closeUnlessFound_none h).2⟩

/-- With a borrowed handle nothing is closed. -/
theorem getStrings_found : (∀ v ∈ (getStrings B env true hdev s).1, v = 0) ∧
    ∃ ret, (getStrings B env true hdev s).2 = some (ret, s) := by
  unfold getStrings
  by_cases hfail : env.stringsFail = true
  · rw [if_pos hfail]
    exact ⟨(closeUnlessFound_none (.inl rfl)).1, _, (closeUnlessFound_none (.inl rfl)).2⟩
  · rw [if_neg hfail]
    exact getRaw_none (.inl rfl)

/-- With a handle of its own the call closes this one, and takes it off the list. -/
theorem getStrings_own (hdev0 : hdev ≠ 0) {l : List DevHandle} {h : DevHandle} (hlist : t.devHandles = l ++ [h])
    (hh : h.handle = hdev) (hnew : ∀ h' ∈ l, h'.handle ≠ hdev) :
    (∀ v ∈ (getStrings B env false hdev t).1, v ≠ 0 → v = hdev) ∧
      ∀ r, (getStrings B env false hdev t).2 = some r → r.2.devHandles = l := by
  have hclosed : ∀ ret r, (closeUnlessFound B false hdev ret t).2 = some r → r.2.devHandles = l := by
    intro ret r hr
    obtain ⟨c, hc, rfl⟩ := Option.map_eq_some_iff.mp hr
    show c.2.devHandles = l
    rw [(close_devHandles hc).1, if_neg hdev0, hlist, List.eraseP_append_right _ (by simpa using hnew)]
    simp [hh]
  have hcloses : ∀ ret, ∀ v ∈ (closeUnlessFound B false hdev ret t).1, v ≠ 0 → v = hdev :=
    fun _ v hv _ => List.mem_singleton.mp hv
  unfold getStrings
  by_cases hfail : env.stringsFail = true
  · rw [if_pos hfail]
    exact ⟨hcloses _, hclosed _⟩
  · rw [if_neg hfail]
    dsimp only
    cases hr : (closeUnlessFound B false hdev OPENUSB_SUCCESS t).2 with
    | none =>
      refine ⟨hcloses _, fun r h => ?_⟩
      rw [hr] at h
      cases h
    | some r =>
      have hzero : (false = true) ∨ (0 : ℕ) = 0 := .inr rfl
      obtain ⟨hrest, ret, hret⟩ := @getRaw_none B r.2 0 env false hzero
      refine ⟨fun v hv hv0 => ?_, fun r' h => ?_⟩
      · rcases List.mem_append.mp hv with hv | hv
        · exact hcloses _ v hv hv0
        · exact absurd (hrest v hv) hv0
      · obtain rfl := Option.some.inj (hret.symm.trans h)
        exact hclosed _ r hr

/-- The handles are left by a call that closes nothing but its own handle. -/
theorem leaves_of_zero {c : List ℕ × Option (ℤ × OpenState)} {obtained : Option ℕ} (hcloses : ∀ v ∈ c.1, v = 0)
    (hresult : ∃ ret, c.2 = some (ret, t)) (ht : t.devHandles = s.devHandles) :
    LeavesHandles s { closes := c.1, obtained := obtained, result := c.2 } := by
  obtain ⟨ret, hret⟩ := hresult
  refine ⟨fun v hv hv0 => absurd (hcloses v hv) hv0, fun r hr => ?_⟩
  obtain rfl := Option.some.inj (hret.symm.trans hr)
  exact ht

theorem leaves_of_return {r : ℤ × OpenState} (h : r.2.devHandles = s.devHandles) :
    LeavesHandles s { result := some r } :=
  ⟨nofun, fun _ hr => Option.some.inj hr ▸ h⟩

/-- An early return, in front of the rest of the call. -/
theorem leaves_or_return {cond : Prop} [Decidable cond] {rest : DataCall} (hearly : ClosesJunk env → ¬ cond)
    (hrest : ¬ cond → (LeavesHandles s rest ↔ ¬ ClosesJunk env)) :
    LeavesHandles s (if cond then { result := some (ret, s) } else rest) ↔ ¬ ClosesJunk env := by
  by_cases hcond : cond
  · rw [if_pos hcond]
    exact iff_of_true (leaves_of_return rfl) fun hjunk => hearly hjunk hcond
  · rw [if_neg hcond]
    exact hrest hcond

/-- Without strings, `hdev` is closed as it happens to be. -/
theorem leaves_junk_iff : LeavesHandles s
    { closes := (getRaw B env false env.junk s).1, result := (getRaw B env false env.junk s).2 } ↔
      ¬ (env.rawFails ≠ none ∧ env.junk ≠ 0) := by
  constructor
  · rintro h ⟨hfails, hjunk⟩
    obtain ⟨ret, hret⟩ := Option.ne_none_iff_exists'.mp hfails
    have hmem : env.junk ∈ (getRaw B env false env.junk s).1 := by
      unfold getRaw
      rw [hret]
      exact List.mem_singleton.mpr rfl
    cases h.closes env.junk hmem hjunk
  · intro h
    by_cases hfails : env.rawFails = none
    · have hraw : getRaw B env false env.junk s = ([], some (OPENUSB_SUCCESS, s)) := by
        unfold getRaw
        rw [hfails]
      rw [hraw]
      exact leaves_of_return rfl
    · have hjunk : env.junk = 0 := by
        by_contra hne
        exact h ⟨hfails, hne⟩
      obtain ⟨hcloses, hresult⟩ := @getRaw_none B s env.junk env false (.inr hjunk)
      exact leaves_of_zero hcloses hresult rfl

/-- The open handles are left alone unless the part from `get_raw` on fails before `hdev` was ever set. -/
theorem leaves_handles_iff (hs : s.Inv) :
    LeavesHandles s (openusbGetDeviceData B s devid env) ↔ ¬ ClosesJunk env := by
  unfold openusbGetDeviceData
  refine leaves_or_return (fun h => by simp [h.handle]) fun hhandle => ?_
  refine leaves_or_return (fun h => by simp [h.device]) fun hdevice => ?_
  refine leaves_or_return (fun h => by simp [h.alloc]) fun halloc => ?_
  refine leaves_or_return (fun h => not_not_intro h.deviceDesc) fun hdesc => ?_
  by_cases hstrings : env.noStrings = true
  · rw [if_pos hstrings]
    refine leaves_junk_iff.trans (not_congr ⟨?_, fun h => ⟨h.rawFails, h.junk⟩⟩)
    rintro ⟨hfails, hjunk⟩
    exact ⟨by simpa using hhandle, by simpa using hdevice, by simpa using halloc, not_not.mp hdesc, hstrings, hfails, hjunk⟩
  rw [if_neg hstrings]
  refine iff_of_true ?_ fun h => hstrings h.noStrings
  cases s.devHandles.find? fun h => h.idev = devid with
  | some found => exact leaves_of_zero getStrings_found.1 getStrings_found.2 rfl
  | none =>
    dsimp only
    cases hopen : openusbOpenDevice B s devid true env.opened with
    | none => exact ⟨nofun, nofun⟩
    | some r =>
      obtain ⟨-, hok, herror⟩ := hs.opens hopen
      dsimp only
      by_cases hret : r.ret = 0
      · rw [if_neg (by rw [hret]; decide), if_neg (not_not.mpr hret)]
        obtain ⟨hdev, h, hh, hlist⟩ := hok hret
        have hpos : r.dev ≠ 0 := hdev ▸ hs.pos.ne'
        have hnew : ∀ h' ∈ s.devHandles, h'.handle ≠ r.dev := fun h' hh' => hdev ▸ Nat.ne_of_lt (hs.given h' hh').2
        obtain ⟨hcloses, hresult⟩ := @getStrings_own B r.state r.dev env hpos s.devHandles h hlist (hh.trans hdev.symm) hnew
        exact ⟨fun v hv hv0 => congrArg some (hcloses v hv hv0).symm, hresult⟩
      · obtain ⟨hdev, hlist⟩ := herror hret
        by_cases hsupported : r.ret = OPENUSB_NOT_SUPPORTED
        · rw [if_pos hsupported]
          obtain ⟨hcloses, hresult⟩ := @getRaw_none B r.state r.dev env false (.inr hdev)
          exact leaves_of_zero hcloses hresult hlist
        · rw [if_neg hsupported, if_pos hret]
          exact leaves_of_return hlist

end

/-- A device with two strings that nobody has open; the configuration cannot be read. -/
def unopenedData : DataEnv where
  handle := true
  device := true
  alloc := true
  deviceDesc := 0
  manufacturer := ⟨1, 12, true⟩
  product := ⟨2, -1, true⟩
  serialnumber := ⟨0, 0, true⟩
  opened := ⟨true, true, some 100, true, some (3, 4)⟩
  rawDesc := OPENUSB_PARSE_ERROR
  configDesc := 0
  rawAlloc := true
  junk := 1

theorem unopened_data_leaves_handles : LeavesHandles ⟨[], 1, ∅, ∅, fun _ => none⟩
    (openusbGetDeviceData (linuxBackend ⟨true, ⟨5, 0⟩, ⟨5, 0⟩, some (6, 7), 0, 8⟩ 0) ⟨[], 1, ∅, ∅, fun _ => none⟩ 1
      unopenedData) :=
  (leaves_handles_iff (.start ..)).mpr fun h => absurd h.noStrings (by decide)

/-- The same without strings, while another device is open. -/
def noStringsData : DataEnv := { unopenedData with manufacturer := ⟨0, 0, true⟩, product := ⟨0, 0, true⟩ }

/-- One handle is open, for device 2. -/
def oneOpen : OpenState where
  devHandles :=
    [{ handle := 1, addr := 100, idev := 2, state := .opened, event_pipe := (3, 4), priv := some ⟨5, (6, 7), some 8⟩ }]
  cur_dev_handle := 2
  fds := {3, 4, 5, 6, 7}
  threads := {8}
  hdev := fun d => if d = 2 then some 100 else none

/-- The variable `hdev` happens to hold the value of the open handle: this one is closed. -/
theorem open_handle_closed : oneOpen.Inv ∧ ∃ c,
    c = openusbGetDeviceData (linuxBackend ⟨true, ⟨9, 0⟩, ⟨9, 0⟩, some (10, 11), 0, 12⟩ 0) oneOpen 1 noStringsData ∧
      c.closes = [1] ∧ c.result.map (fun r => r.2.devHandles) = some [] ∧ ¬ LeavesHandles oneOpen c := by
  refine ⟨⟨by decide, by decide⟩, _, rfl, rfl, rfl, fun h => ?_⟩
  cases h.closes 1 (by decide) (by decide)

end OpenUsb.Opening
