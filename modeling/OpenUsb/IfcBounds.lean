import OpenUsb.Config
import OpenUsb.Fetch

/-!
# IfcBounds — the tables that the interface calls index

The calls on the interfaces of a device once more, with each access to `claimed_ifs`, `configs[cur_config_index]` and
`interfaces[ifc]` logged.  Their results are those of `Claim` and `Config`.  `claimed_ifs` has `USBI_MAXINTERFACES` entries,
and the calls refuse an interface number only when it is greater.

* `ifc_in_bounds_iff`: when a sequence of calls stays inside of the tables.
-/

namespace OpenUsb.IfcBounds

open Prog

/-! ## Accesses -/

/-- An access to one of the tables, by its index; `count` is the number of entries of the table. -/
inductive Access where
  | claimedIfs (ifc : UInt8)
  | config (index : ℤ) (count : ℕ)
  | interface (ifc : UInt8) (count : ℕ)
  deriving DecidableEq, Repr

def InBounds : Access → Prop
  | .claimedIfs ifc => ifc.toNat < USBI_MAXINTERFACES
  | .config index count => 0 ≤ index ∧ index < count
  | .interface ifc count => ifc.toNat < count

instance : DecidablePred InBounds
  | .claimedIfs _ => inferInstanceAs (Decidable (_ < _))
  | .config _ _ => inferInstanceAs (Decidable (_ ∧ _))
  | .interface _ _ => inferInstanceAs (Decidable (_ < _))

/-- What `usbi_fetch_and_parse_descriptors` returns and leaves behind, and what an index outside of its tables hits. -/
structure Fetched where
  ret : ℤ
  desc : UsbiDescriptors
  config : ℤ → UsbiConfig := fun _ => {}
  interface : UInt8 → UsbiInterface := fun _ => {}

namespace Fetched

variable (f : Fetched)

/-- `configs[index]`. -/
def configEntry (index : ℤ) : UsbiConfig :=
  if 0 ≤ index then (f.desc.configs.get? index.toNat).getD (f.config index) else f.config index

/-- `pcfg->interfaces[ifc]`. -/
def interfaceEntry (pcfg : UsbiConfig) (ifc : UInt8) : UsbiInterface :=
  (pcfg.interfaces.get? ifc.toNat).getD (f.interface ifc)

/-- What the calls find of it. -/
def refresh (index : ℤ) : Refresh where
  ret := f.ret
  curConfigIndex := index
  numInterfaces := (f.configEntry index).num_interfaces
  numAltsettings ifc := (f.interfaceEntry (f.configEntry index) ifc).num_altsettings

end Fetched

/-! ## The Linux backend -/

/-- An access that is only made in some cases. -/
def emitIf (c : Prop) [Decidable c] (a : Access) : Prog Access Unit := if c then emit a else pure ()

section

variable (hdev : DevHandle) (ifc : UInt8)

def linuxClaimInterface (flags : InitFlag) (sys : ClaimCalls) : Prog Access (ℤ × DevHandle) := do
  emit (.claimedIfs ifc)
  emitIf ((hdev.claimedIfs ifc).clm ≠ USBI_IFC_CLAIMED ∧ 0 ≤ sys.claim.ret) (.claimedIfs ifc)
  pure (OpenUsb.linuxClaimInterface hdev ifc flags sys)

def linuxReleaseInterface (release attach : Syscall) : Prog Access (ℤ × DevHandle) := do
  emitIf (0 ≤ release.ret) (.claimedIfs ifc)
  pure (OpenUsb.linuxReleaseInterface hdev ifc release attach)

def linuxSetAltsetting (alt : UInt8) (sys : Syscall) : Prog Access (ℤ × DevHandle) := do
  emit (.claimedIfs ifc)
  emitIf ((hdev.claimedIfs ifc).clm = USBI_IFC_CLAIMED ∧ 0 ≤ sys.ret) (.claimedIfs ifc)
  pure (OpenUsb.linuxSetAltsetting hdev ifc alt sys)

def linuxGetAltsetting : Prog Access (ℤ × UInt8) := do
  emit (.claimedIfs ifc)
  pure (OpenUsb.linuxGetAltsetting hdev ifc)

/-! ## The calls of the application -/

/-- `openusb_claim_interface`; `index` is `cur_config_index`. -/
def openusbClaimInterface (index : ℤ) (flags : InitFlag) (f : Fetched) (sys : ClaimCalls) :
    Prog Access (ℤ × DevHandle) :=
  if ifc.toNat > USBI_MAXINTERFACES then pure (OPENUSB_BADARG, hdev)
  else if !hdev.opened then pure (OPENUSB_UNKNOWN_DEVICE, hdev)
  else if f.ret ≠ 0 then pure (OPENUSB_BADARG, hdev)
  else if ifc.toNat ≥ USBI_MAXINTERFACES then pure (OPENUSB_BADARG, hdev)
  else do
    emit (.config index f.desc.configs.liveCount)
    if ifc.toNat ≥ (f.configEntry index).num_interfaces then pure (OPENUSB_BADARG, hdev)
    else do
      let (ret, hdev) ← linuxClaimInterface hdev ifc flags sys
      if ret = 0 then do
        emit (.claimedIfs ifc)
        pure (ret, hdev.mark ifc USBI_IFC_CLAIMED 0)
      else pure (ret, hdev)

/-- `openusb_is_interface_claimed`. -/
def openusbIsInterfaceClaimed : Prog Access ℤ :=
  if ifc.toNat > USBI_MAXINTERFACES then pure OPENUSB_BADARG
  else if !hdev.opened then pure OPENUSB_BADARG
  else do
    emit (.claimedIfs ifc)
    pure (if (hdev.claimedIfs ifc).clm = USBI_IFC_CLAIMED then 1 else 0)

/-- `openusb_release_interface`. -/
def openusbReleaseInterface (release attach : Syscall) : Prog Access (ℤ × DevHandle) :=
  if ifc.toNat > USBI_MAXINTERFACES then pure (OPENUSB_BADARG, hdev)
  else if !hdev.opened then pure (OPENUSB_UNKNOWN_DEVICE, hdev)
  else do
    let claimed ← openusbIsInterfaceClaimed hdev ifc
    if claimed ≠ 1 then pure (OPENUSB_BADARG, hdev)
    else linuxReleaseInterface hdev ifc release attach

/-- `openusb_set_altsetting`; the flag says that it returns with the lock of the handle held. -/
def openusbSetAltsetting (index : ℤ) (alt : UInt8) (f : Fetched) (sys : Syscall) : Prog Access (ℤ × DevHandle × Bool) :=
  if !hdev.opened then pure (OPENUSB_UNKNOWN_DEVICE, hdev, false)
  else if ifc.toNat > USBI_MAXINTERFACES then pure (OPENUSB_BADARG, hdev, false)
  else if f.ret ≠ 0 then pure (OPENUSB_PARSE_ERROR, hdev, false)
  else if index < 0 then pure (OPENUSB_PARSE_ERROR, hdev, true)
  else do
    let pcfg := f.configEntry index
    emit (.config index f.desc.configs.liveCount)
    if ifc.toNat > pcfg.num_interfaces then pure (OPENUSB_BADARG, hdev, false)
    else do
      emit (.claimedIfs ifc)
      if (hdev.claimedIfs ifc).clm ≠ USBI_IFC_CLAIMED then pure (OPENUSB_BADARG, hdev, false)
      else do
        emit (.interface ifc pcfg.interfaces.liveCount)
        if alt.toNat ≥ (f.interfaceEntry pcfg ifc).num_altsettings then pure (OPENUSB_BADARG, hdev, false)
        else do
          emit (.claimedIfs ifc)
          if (alt.toNat : ℤ) = (hdev.claimedIfs ifc).altsetting then pure (0, hdev, false)
          else do
            let (ret, hdev) ← linuxSetAltsetting hdev ifc alt sys
            pure (ret, hdev, false)

/-- `openusb_get_altsetting`, of a caller that passes an address. -/
def openusbGetAltsetting : Prog Access (ℤ × Option UInt8) :=
  if ifc.toNat > USBI_MAXINTERFACES then pure (OPENUSB_BADARG, none)
  else if !hdev.opened then pure (OPENUSB_UNKNOWN_DEVICE, none)
  else do
    emit (.claimedIfs ifc)
    if (hdev.claimedIfs ifc).clm ≠ USBI_IFC_CLAIMED then pure (OPENUSB_BADARG, none)
    else do
      let (ret, alt) ← linuxGetAltsetting hdev ifc
      pure (ret, some alt)

end

/-- `openusb_set_configuration`, which indexes none of the tables; `parse` and `bNumConfigurations` are what
`openusb_parse_device_desc` gives. -/
def openusbSetConfiguration (cache : ConfigCache) (cfg : UInt8) (parse : ℤ) (bNumConfigurations : UInt8) (sys : Syscall)
    (table : ConfigTable) : ℤ × ConfigCache :=
  if parse ≠ 0 then (parse, cache)
  else if cfg < 1 ∨ cfg > bNumConfigurations then (OPENUSB_BADARG, cache)
  else linuxSetConfiguration cache cfg sys table

/-! ## Sequences of calls -/

/-- An open device: its handle, what is cached of its configuration, and whether the lock of the handle was left held. -/
structure IfcState where
  hdev : DevHandle
  cache : ConfigCache
  locked : Bool := false

/-- A call, with what the descriptors and the system calls answer. -/
inductive IfcCall where
  | claim (ifc : UInt8) (flags : InitFlag) (f : Fetched) (sys : ClaimCalls)
  | release (ifc : UInt8) (release attach : Syscall)
  | isClaimed (ifc : UInt8)
  | setAltsetting (ifc alt : UInt8) (f : Fetched) (sys : Syscall)
  | getAltsetting (ifc : UInt8)
  | setConfiguration (cfg : UInt8) (parse : ℤ) (bNumConfigurations : UInt8) (sys : Syscall) (table : ConfigTable)

/-- A call.  While the lock is held every call waits for it before it comes to a table, so nothing happens any more. -/
def step (s : IfcState) (call : IfcCall) : Prog Access IfcState :=
  if s.locked then pure s
  else match call with
    | .claim ifc flags f sys => do
      let (_, hdev) ← openusbClaimInterface s.hdev ifc s.cache.curConfigIndex flags f sys
      pure { s with hdev := hdev }
    | .release ifc release attach => do
      let (_, hdev) ← openusbReleaseInterface s.hdev ifc release attach
      pure { s with hdev := hdev }
    | .isClaimed ifc => do
      let _ ← openusbIsInterfaceClaimed s.hdev ifc
      pure s
    | .setAltsetting ifc alt f sys => do
      let (_, hdev, locked) ← openusbSetAltsetting s.hdev ifc s.cache.curConfigIndex alt f sys
      pure { s with hdev := hdev, locked := locked }
    | .getAltsetting ifc => do
      let _ ← openusbGetAltsetting s.hdev ifc
      pure s
    | .setConfiguration cfg parse bNumConfigurations sys table =>
      pure { s with cache := (openusbSetConfiguration s.cache cfg parse bNumConfigurations sys table).2 }

/-- A sequence of calls. -/
def run (s : IfcState) : List IfcCall → Prog Access IfcState
  | [] => pure s
  | call :: calls => do
    let s ← step s call
    run s calls

/-! ## The results of the calls -/

section

variable {hdev : DevHandle} {ifc alt : UInt8} {index : ℤ} {flags : InitFlag} {f : Fetched}

theorem returns_emitIf {c : Prop} [Decidable c] {a : Access} : (emitIf c a).Returns () := by
  unfold emitIf
  split_ifs
  · exact returns_emit
  · exact returns_pure.mpr rfl

theorem emits_emitIf {P : Access → Prop} {c : Prop} [Decidable c] {a : Access} (h : P a) : Emits P (emitIf c a) := by
  unfold emitIf
  split_ifs
  · exact emits_emit.mpr h
  · exact emits_pure

theorem returns_linuxClaim (sys : ClaimCalls) :
    (linuxClaimInterface hdev ifc flags sys).Returns (OpenUsb.linuxClaimInterface hdev ifc flags sys) :=
  returns_emit_bind.mpr (returns_emitIf.bind_iff.mpr (returns_pure.mpr rfl))

theorem returns_linuxRelease (release attach : Syscall) :
    (linuxReleaseInterface hdev ifc release attach).Returns (OpenUsb.linuxReleaseInterface hdev ifc release attach) :=
  returns_emitIf.bind_iff.mpr (returns_pure.mpr rfl)

theorem returns_linuxSet (sys : Syscall) :
    (linuxSetAltsetting hdev ifc alt sys).Returns (OpenUsb.linuxSetAltsetting hdev ifc alt sys) :=
  returns_emit_bind.mpr (returns_emitIf.bind_iff.mpr (returns_pure.mpr rfl))

theorem returns_linuxGet : (linuxGetAltsetting hdev ifc).Returns (OpenUsb.linuxGetAltsetting hdev ifc) :=
  returns_emit_bind.mpr (returns_pure.mpr rfl)

theorem returns_claim (sys : ClaimCalls) : (openusbClaimInterface hdev ifc index flags f sys).Returns
    (OpenUsb.openusbClaimInterface hdev ifc flags (f.refresh index) sys) := by
  unfold openusbClaimInterface OpenUsb.openusbClaimInterface
  by_cases h1 : ifc.toNat > USBI_MAXINTERFACES
  · rw [if_pos h1, if_pos h1, returns_pure]
  rw [if_neg h1, if_neg h1]
  by_cases h2 : (!hdev.opened) = true
  · rw [if_pos h2, if_pos h2, returns_pure]
  rw [if_neg h2, if_neg h2]
  by_cases h3 : f.ret ≠ 0
  · rw [if_pos h3, if_pos (show (f.refresh index).ret ≠ 0 from h3), returns_pure]
  rw [if_neg h3, if_neg (show ¬ (f.refresh index).ret ≠ 0 from h3)]
  by_cases h4 : ifc.toNat ≥ USBI_MAXINTERFACES
  · rw [if_pos h4, if_pos (.inl h4), returns_pure]
  rw [if_neg h4, returns_emit_bind]
  by_cases h5 : ifc.toNat ≥ (f.configEntry index).num_interfaces
  · rw [if_pos h5, if_pos (.inr h5), returns_pure]
  have hvalid : ¬ (ifc.toNat ≥ USBI_MAXINTERFACES ∨ ifc.toNat ≥ (f.refresh index).numInterfaces) := not_or.mpr ⟨h4, h5⟩
  rw [if_neg h5, if_neg hvalid, (returns_linuxClaim sys).bind_iff]
  dsimp only
  by_cases h6 : (OpenUsb.linuxClaimInterface hdev ifc flags sys).1 = 0
  · rw [if_pos h6, if_pos h6, returns_emit_bind, returns_pure]
  · rw [if_neg h6, if_neg h6, returns_pure]

theorem returns_isClaimed : (openusbIsInterfaceClaimed hdev ifc).Returns (OpenUsb.openusbIsInterfaceClaimed hdev ifc) := by
  unfold openusbIsInterfaceClaimed OpenUsb.openusbIsInterfaceClaimed
  by_cases h1 : ifc.toNat > USBI_MAXINTERFACES
  · rw [if_pos h1, if_pos h1, returns_pure]
  by_cases h2 : (!hdev.opened) = true
  · rw [if_neg h1, if_neg h1, if_pos h2, if_pos h2, returns_pure]
  · rw [if_neg h1, if_neg h1, if_neg h2, if_neg h2, returns_emit_bind, returns_pure]

theorem returns_release (release attach : Syscall) : (openusbReleaseInterface hdev ifc release attach).Returns
    (OpenUsb.openusbReleaseInterface hdev ifc release attach) := by
  unfold openusbReleaseInterface OpenUsb.openusbReleaseInterface
  by_cases h1 : ifc.toNat > USBI_MAXINTERFACES
  · rw [if_pos h1, if_pos h1, returns_pure]
  rw [if_neg h1, if_neg h1]
  by_cases h2 : (!hdev.opened) = true
  · rw [if_pos h2, if_pos h2, returns_pure]
  rw [if_neg h2, if_neg h2, returns_isClaimed.bind_iff]
  by_cases h3 : OpenUsb.openusbIsInterfaceClaimed hdev ifc ≠ 1
  · rw [if_pos h3, if_pos h3, returns_pure]
  · rw [if_neg h3, if_neg h3]
    exact returns_linuxRelease release attach

/-- The call comes back with the lock of the handle held. -/
def LeavesLocked (hdev : DevHandle) (ifc : UInt8) (index : ℤ) (f : Fetched) : Prop :=
  hdev.opened = true ∧ ifc.toNat ≤ USBI_MAXINTERFACES ∧ f.ret = 0 ∧ index < 0

instance : Decidable (LeavesLocked hdev ifc index f) := inferInstanceAs (Decidable (_ ∧ _))

theorem returns_set (sys : Syscall) : (openusbSetAltsetting hdev ifc index alt f sys).Returns
    ((OpenUsb.openusbSetAltsetting hdev ifc alt (f.refresh index) sys).1,
      (OpenUsb.openusbSetAltsetting hdev ifc alt (f.refresh index) sys).2, decide (LeavesLocked hdev ifc index f)) := by
  have hfree (h : ¬ LeavesLocked hdev ifc index f) : decide (LeavesLocked hdev ifc index f) = false := decide_eq_false h
  unfold openusbSetAltsetting OpenUsb.openusbSetAltsetting
  by_cases h1 : (!hdev.opened) = true
  · rw [if_pos h1, if_pos h1, returns_pure, hfree (fun h => by simp [h.1] at h1)]
  rw [if_neg h1, if_neg h1]
  by_cases h2 : ifc.toNat > USBI_MAXINTERFACES
  · rw [if_pos h2, if_pos h2, returns_pure,
      hfree (fun h => absurd h.2.1 (Nat.not_le.mpr h2))]
  rw [if_neg h2, if_neg h2]
  by_cases h3 : f.ret ≠ 0
  · rw [if_pos h3, if_pos (show (f.refresh index).ret ≠ 0 from h3), returns_pure,
      hfree (fun h => h3 h.2.2.1)]
  rw [if_neg h3, if_neg (show ¬ (f.refresh index).ret ≠ 0 from h3)]
  by_cases h4 : index < 0
  · rw [if_pos h4, if_pos (show (f.refresh index).curConfigIndex < 0 from h4), returns_pure,
      decide_eq_true (show LeavesLocked hdev ifc index f from ⟨by simpa using h1, Nat.not_lt.mp h2, not_not.mp h3, h4⟩)]
  rw [if_neg h4, if_neg (show ¬ (f.refresh index).curConfigIndex < 0 from h4),
    hfree (fun h => h4 h.2.2.2), returns_emit_bind]
  by_cases h5 : ifc.toNat > (f.configEntry index).num_interfaces
  · rw [if_pos h5, if_pos (.inl h5), returns_pure]
  rw [if_neg h5, returns_emit_bind]
  by_cases h6 : (hdev.claimedIfs ifc).clm ≠ USBI_IFC_CLAIMED
  · rw [if_pos h6, if_pos (.inr (.inr (.inl h6))), returns_pure]
  rw [if_neg h6, returns_emit_bind]
  by_cases h7 : alt.toNat ≥ (f.interfaceEntry (f.configEntry index) ifc).num_altsettings
  · rw [if_pos h7, if_pos (.inr (.inr (.inr h7))), returns_pure]
  have hvalid : ¬ (ifc.toNat > (f.refresh index).numInterfaces ∨ ifc.toNat > USBI_MAXINTERFACES ∨
      (hdev.claimedIfs ifc).clm ≠ USBI_IFC_CLAIMED ∨ alt.toNat ≥ (f.refresh index).numAltsettings ifc) :=
    not_or.mpr ⟨h5, not_or.mpr ⟨h2, not_or.mpr ⟨h6, h7⟩⟩⟩
  rw [if_neg h7, if_neg hvalid, returns_emit_bind]
  by_cases h8 : (alt.toNat : ℤ) = (hdev.claimedIfs ifc).altsetting
  · rw [if_pos h8, if_pos h8, returns_pure]
  · rw [if_neg h8, if_neg h8, (returns_linuxSet sys).bind_iff, returns_pure]

theorem returns_get : (openusbGetAltsetting hdev ifc).Returns (OpenUsb.openusbGetAltsetting hdev ifc) := by
  unfold openusbGetAltsetting OpenUsb.openusbGetAltsetting
  by_cases h1 : ifc.toNat > USBI_MAXINTERFACES
  · rw [if_pos h1, if_pos h1, returns_pure]
  rw [if_neg h1, if_neg h1]
  by_cases h2 : (!hdev.opened) = true
  · rw [if_pos h2, if_pos h2, returns_pure]
  rw [if_neg h2, if_neg h2, returns_emit_bind]
  by_cases h3 : (hdev.claimedIfs ifc).clm ≠ USBI_IFC_CLAIMED
  · rw [if_pos h3, if_pos h3, returns_pure]
  · rw [if_neg h3, if_neg h3, returns_linuxGet.bind_iff, returns_pure]

end

/-! ## The accesses of the calls -/

section

variable {hdev : DevHandle} {ifc alt : UInt8} {index : ℤ} {flags : InitFlag} {f : Fetched}

/-- An access that is in bounds, in front of a program. -/
theorem emits_in_bounds {a : Access} {α : Type} {p : Unit → Prog Access α} (ha : InBounds a) :
    Emits InBounds (emit a >>= p) ↔ Emits InBounds (p ()) := by
  rw [emits_emit_bind, and_iff_right ha]

theorem emits_linuxClaim (sys : ClaimCalls) (h : InBounds (.claimedIfs ifc)) :
    Emits InBounds (linuxClaimInterface hdev ifc flags sys) :=
  (emits_in_bounds h).mpr (returns_emitIf.emits_bind_iff.mpr ⟨emits_emitIf h, emits_pure⟩)

theorem emits_linuxRelease (release attach : Syscall) (h : InBounds (.claimedIfs ifc)) :
    Emits InBounds (linuxReleaseInterface hdev ifc release attach) :=
  returns_emitIf.emits_bind_iff.mpr ⟨emits_emitIf h, emits_pure⟩

theorem emits_linuxSet (sys : Syscall) (h : InBounds (.claimedIfs ifc)) :
    Emits InBounds (linuxSetAltsetting hdev ifc alt sys) :=
  (emits_in_bounds h).mpr (returns_emitIf.emits_bind_iff.mpr ⟨emits_emitIf h, emits_pure⟩)

theorem emits_linuxGet (h : InBounds (.claimedIfs ifc)) : Emits InBounds (linuxGetAltsetting hdev ifc) :=
  (emits_in_bounds h).mpr emits_pure

/-- The only interface number that passes for one of the table and is not. -/
theorem claimedIfs_iff (h : ¬ ifc.toNat > USBI_MAXINTERFACES) :
    InBounds (.claimedIfs ifc) ↔ ifc.toNat ≠ USBI_MAXINTERFACES :=
  ⟨Nat.ne_of_lt, fun hne => Nat.lt_of_le_of_ne (Nat.not_lt.mp h) hne⟩

theorem opened_of_not (h : ¬ (!hdev.opened) = true) : hdev.opened = true := by simpa using h

theorem emits_claim (sys : ClaimCalls) : Emits InBounds (openusbClaimInterface hdev ifc index flags f sys) ↔
    (hdev.opened = true → f.ret = 0 → ifc.toNat < USBI_MAXINTERFACES → 0 ≤ index ∧ index < f.desc.configs.liveCount) := by
  unfold openusbClaimInterface
  by_cases h1 : ifc.toNat > USBI_MAXINTERFACES
  · rw [if_pos h1]
    exact iff_of_true emits_pure fun _ _ h => absurd h (Nat.not_lt.mpr (Nat.le_of_lt h1))
  rw [if_neg h1]
  by_cases h2 : (!hdev.opened) = true
  · rw [if_pos h2]
    exact iff_of_true emits_pure fun h => by simp [h] at h2
  rw [if_neg h2]
  by_cases h3 : f.ret ≠ 0
  · rw [if_pos h3]
    exact iff_of_true emits_pure fun _ h => absurd h h3
  rw [if_neg h3]
  by_cases h4 : ifc.toNat ≥ USBI_MAXINTERFACES
  · rw [if_pos h4]
    exact iff_of_true emits_pure fun _ _ h => absurd h (Nat.not_lt.mpr h4)
  have hifc : InBounds (.claimedIfs ifc) := Nat.not_le.mp h4
  rw [if_neg h4, emits_emit_bind]
  refine (and_iff_left ?_).trans
    ⟨fun h _ _ _ => h, fun h => h (opened_of_not h2) (not_not.mp h3) hifc⟩
  -- what follows the access to the configuration stays inside of `claimed_ifs`
  by_cases h5 : ifc.toNat ≥ (f.configEntry index).num_interfaces
  · rw [if_pos h5]
    exact emits_pure
  rw [if_neg h5, (returns_linuxClaim sys).emits_bind_iff]
  refine ⟨emits_linuxClaim sys hifc, ?_⟩
  dsimp only
  split_ifs
  · exact (emits_in_bounds hifc).mpr emits_pure
  · exact emits_pure

theorem emits_isClaimed : Emits InBounds (openusbIsInterfaceClaimed hdev ifc) ↔
    (hdev.opened = true → ifc.toNat ≠ USBI_MAXINTERFACES) := by
  unfold openusbIsInterfaceClaimed
  by_cases h1 : ifc.toNat > USBI_MAXINTERFACES
  · rw [if_pos h1]
    exact iff_of_true emits_pure fun _ => (Nat.ne_of_lt h1).symm
  rw [if_neg h1]
  by_cases h2 : (!hdev.opened) = true
  · rw [if_pos h2]
    exact iff_of_true emits_pure fun h => by simp [h] at h2
  rw [if_neg h2, emits_emit_bind, and_iff_left emits_pure, claimedIfs_iff h1]
  exact ⟨fun h _ => h, fun h => h (opened_of_not h2)⟩

theorem emits_release (release attach : Syscall) : Emits InBounds (openusbReleaseInterface hdev ifc release attach) ↔
    (hdev.opened = true → ifc.toNat ≠ USBI_MAXINTERFACES) := by
  unfold openusbReleaseInterface
  by_cases h1 : ifc.toNat > USBI_MAXINTERFACES
  · rw [if_pos h1]
    exact iff_of_true emits_pure fun _ => (Nat.ne_of_lt h1).symm
  rw [if_neg h1]
  by_cases h2 : (!hdev.opened) = true
  · rw [if_pos h2]
    exact iff_of_true emits_pure fun h => by simp [h] at h2
  rw [if_neg h2, returns_isClaimed.emits_bind_iff, emits_isClaimed]
  refine and_iff_left_of_imp fun h => ?_
  split_ifs
  · exact emits_pure
  · exact emits_linuxRelease release attach ((claimedIfs_iff h1).mpr (h (opened_of_not h2)))

theorem emits_get : Emits InBounds (openusbGetAltsetting hdev ifc) ↔
    (hdev.opened = true → ifc.toNat ≠ USBI_MAXINTERFACES) := by
  unfold openusbGetAltsetting
  by_cases h1 : ifc.toNat > USBI_MAXINTERFACES
  · rw [if_pos h1]
    exact iff_of_true emits_pure fun _ => (Nat.ne_of_lt h1).symm
  rw [if_neg h1]
  by_cases h2 : (!hdev.opened) = true
  · rw [if_pos h2]
    exact iff_of_true emits_pure fun h => by simp [h] at h2
  rw [if_neg h2, emits_emit_bind, claimedIfs_iff h1]
  refine Iff.trans (and_iff_left_of_imp fun h => ?_) ⟨fun h _ => h, fun h => h (opened_of_not h2)⟩
  split_ifs
  · exact emits_pure
  · exact returns_linuxGet.emits_bind_iff.mpr ⟨emits_linuxGet ((claimedIfs_iff h1).mpr h), emits_pure⟩

/-- The accesses of `openusb_set_altsetting` behind its checks: the configuration, the mark and the interface. -/
def SetInBounds (hdev : DevHandle) (ifc : UInt8) (index : ℤ) (f : Fetched) : Prop :=
  index < f.desc.configs.liveCount ∧
    (ifc.toNat ≤ (f.configEntry index).num_interfaces → ifc.toNat ≠ USBI_MAXINTERFACES ∧
      ((hdev.claimedIfs ifc).clm = USBI_IFC_CLAIMED → ifc.toNat < (f.configEntry index).interfaces.liveCount))

theorem emits_set (sys : Syscall) : Emits InBounds (openusbSetAltsetting hdev ifc index alt f sys) ↔
    (hdev.opened = true → f.ret = 0 → ifc.toNat ≤ USBI_MAXINTERFACES → 0 ≤ index → SetInBounds hdev ifc index f) := by
  unfold openusbSetAltsetting SetInBounds
  by_cases h1 : (!hdev.opened) = true
  · rw [if_pos h1]
    exact iff_of_true emits_pure fun h => by simp [h] at h1
  rw [if_neg h1]
  by_cases h2 : ifc.toNat > USBI_MAXINTERFACES
  · rw [if_pos h2]
    exact iff_of_true emits_pure fun _ _ h => absurd h (Nat.not_le.mpr h2)
  rw [if_neg h2]
  by_cases h3 : f.ret ≠ 0
  · rw [if_pos h3]
    exact iff_of_true emits_pure fun _ h => absurd h h3
  rw [if_neg h3]
  by_cases h4 : index < 0
  · rw [if_pos h4]
    exact iff_of_true emits_pure fun _ _ _ h => absurd h (Int.not_le.mpr h4)
  rw [if_neg h4]
  have hcond {Q : Prop} : (hdev.opened = true → f.ret = 0 → ifc.toNat ≤ USBI_MAXINTERFACES → 0 ≤ index → Q) ↔ Q :=
    ⟨fun h => h (opened_of_not h1) (not_not.mp h3) (Nat.not_lt.mp h2) (Int.not_lt.mp h4), fun h _ _ _ _ => h⟩
  have hconfig : InBounds (.config index f.desc.configs.liveCount) ↔ index < f.desc.configs.liveCount :=
    and_iff_right (Int.not_lt.mp h4)
  rw [hcond, emits_emit_bind, hconfig]
  refine and_congr_right fun _ => ?_
  by_cases h5 : ifc.toNat > (f.configEntry index).num_interfaces
  · rw [if_pos h5]
    exact iff_of_true emits_pure fun h => absurd h (Nat.not_le.mpr h5)
  rw [if_neg h5, emits_emit_bind, claimedIfs_iff h2, forall_prop_of_true (Nat.not_lt.mp h5)]
  refine and_congr_right fun hne => ?_
  have hifc : InBounds (.claimedIfs ifc) := (claimedIfs_iff h2).mpr hne
  by_cases h6 : (hdev.claimedIfs ifc).clm ≠ USBI_IFC_CLAIMED
  · rw [if_pos h6]
    exact iff_of_true emits_pure fun h => absurd h h6
  rw [if_neg h6, emits_emit_bind, forall_prop_of_true (not_not.mp h6)]
  refine (and_iff_left ?_).trans Iff.rfl
  -- what follows only goes back to the mark
  split_ifs
  · exact emits_pure
  · exact (emits_in_bounds hifc).mpr emits_pure
  · exact (emits_in_bounds hifc).mpr ((returns_linuxSet sys).emits_bind_iff.mpr ⟨emits_linuxSet sys hifc, emits_pure⟩)

end

/-! ## Sequences of calls stay inside of the tables -/

/-- The state after a call. -/
def next (s : IfcState) (call : IfcCall) : IfcState :=
  if s.locked then s
  else match call with
    | .claim ifc flags f sys =>
      { s with hdev := (OpenUsb.openusbClaimInterface s.hdev ifc flags (f.refresh s.cache.curConfigIndex) sys).2 }
    | .release ifc release attach => { s with hdev := (OpenUsb.openusbReleaseInterface s.hdev ifc release attach).2 }
    | .setAltsetting ifc alt f sys =>
      { s with
        hdev := (OpenUsb.openusbSetAltsetting s.hdev ifc alt (f.refresh s.cache.curConfigIndex) sys).2
        locked := decide (LeavesLocked s.hdev ifc s.cache.curConfigIndex f) }
    | .setConfiguration cfg parse bNumConfigurations sys table =>
      { s with cache := (openusbSetConfiguration s.cache cfg parse bNumConfigurations sys table).2 }
    | .isClaimed _ | .getAltsetting _ => s

/-- When a call stays inside of the tables: the interface number is not `USBI_MAXINTERFACES`, the current configuration is
one of those that were fetched, and the interface is one of its interfaces. -/
def CallInBounds (s : IfcState) : IfcCall → Prop
  | .claim ifc _ f _ => s.hdev.opened = true → f.ret = 0 → ifc.toNat < USBI_MAXINTERFACES →
      0 ≤ s.cache.curConfigIndex ∧ s.cache.curConfigIndex < f.desc.configs.liveCount
  | .release ifc _ _ | .isClaimed ifc | .getAltsetting ifc => s.hdev.opened = true → ifc.toNat ≠ USBI_MAXINTERFACES
  | .setAltsetting ifc _ f _ => s.hdev.opened = true → f.ret = 0 → ifc.toNat ≤ USBI_MAXINTERFACES →
      0 ≤ s.cache.curConfigIndex → SetInBounds s.hdev ifc s.cache.curConfigIndex f
  | .setConfiguration .. => True

section

variable {s : IfcState}

theorem returns_step (call : IfcCall) : (step s call).Returns (next s call) := by
  unfold step next
  by_cases hlocked : s.locked = true
  · rw [if_pos hlocked, if_pos hlocked, returns_pure]
  rw [if_neg hlocked, if_neg hlocked]
  cases call with
  | claim ifc flags f sys => exact (returns_claim sys).bind_iff.mpr (returns_pure.mpr rfl)
  | release ifc release attach => exact (returns_release release attach).bind_iff.mpr (returns_pure.mpr rfl)
  | isClaimed ifc => exact returns_isClaimed.bind_iff.mpr (returns_pure.mpr rfl)
  | setAltsetting ifc alt f sys => exact (returns_set sys).bind_iff.mpr (returns_pure.mpr rfl)
  | getAltsetting ifc => exact returns_get.bind_iff.mpr (returns_pure.mpr rfl)
  | setConfiguration cfg parse num sys table => exact returns_pure.mpr rfl

theorem emits_step (call : IfcCall) : Emits InBounds (step s call) ↔ s.locked = true ∨ CallInBounds s call := by
  unfold step
  by_cases hlocked : s.locked = true
  · rw [if_pos hlocked]
    exact iff_of_true emits_pure (.inl hlocked)
  rw [if_neg hlocked, or_iff_right hlocked]
  cases call with
  | claim ifc flags f sys =>
    refine (returns_claim sys).emits_bind_iff.trans ?_
    rw [emits_claim]
    exact and_iff_left emits_pure
  | release ifc release attach =>
    refine (returns_release release attach).emits_bind_iff.trans ?_
    rw [emits_release]
    exact and_iff_left emits_pure
  | isClaimed ifc =>
    refine returns_isClaimed.emits_bind_iff.trans ?_
    rw [emits_isClaimed]
    exact and_iff_left emits_pure
  | setAltsetting ifc alt f sys =>
    refine (returns_set sys).emits_bind_iff.trans ?_
    rw [emits_set]
    exact and_iff_left emits_pure
  | getAltsetting ifc =>
    refine returns_get.emits_bind_iff.trans ?_
    rw [emits_get]
    exact and_iff_left emits_pure
  | setConfiguration cfg parse num sys table => exact iff_of_true emits_pure trivial

end

/-- A sequence of calls stays inside of the tables exactly when each of its calls does so in the state that it finds; a call
that finds the lock held comes to no table. -/
theorem ifc_in_bounds_iff (s : IfcState) (calls : List IfcCall) : Emits InBounds (run s calls) ↔
    ∀ before call after, calls = before ++ call :: after →
      (before.foldl next s).locked = true ∨ CallInBounds (before.foldl next s) call := by
  induction calls generalizing s with
  | nil =>
    refine iff_of_true emits_pure fun before call after h => ?_
    exact absurd h.symm (List.append_ne_nil_of_right_ne_nil before (List.cons_ne_nil call after))
  | cons call calls ih =>
    rw [run, (returns_step call).emits_bind_iff, emits_step, ih]
    constructor
    · rintro ⟨hcall, hcalls⟩ before call' after heq
      cases before with
      | nil =>
        obtain ⟨rfl, -⟩ := List.cons.inj heq
        exact hcall
      | cons first before =>
        obtain ⟨rfl, hrest⟩ := List.cons.inj heq
        exact hcalls before call' after hrest
    · intro h
      exact ⟨h [] call calls rfl, fun before call' after heq => h (call :: before) call' after (by rw [heq]; rfl)⟩

/-- The handle of a device that was just opened, in its first configuration. -/
def opened (index : ℤ) : IfcState where
  hdev := .openDevice (fun _ => false) fun _ => ⟨0, 0⟩
  cache := { curConfigValue := 1, curConfigIndex := index }

/-- A device with one configuration and no interface. -/
def oneConfig : Fetched where
  ret := 0
  desc := { num_configs := 1, configs := .live 1 [{}] }

/-- Interface number 32 is not refused, and neither is the claim of an interface while the index of the current
configuration is that of a lookup which failed. -/
theorem out_of_bounds : ¬ Emits InBounds (run (opened 0) [.isClaimed 32]) ∧
    ¬ Emits InBounds (run (opened (-1)) [.claim 0 .default oneConfig { claim := ⟨0, 0⟩ }]) := by
  constructor
  · intro h
    have hlogs : (run (opened 0) [.isClaimed 32]).Logs (.claimedIfs 32) := ⟨0, by decide +kernel⟩
    exact absurd (h _ hlogs) (by decide)
  · intro h
    have hlogs : (run (opened (-1)) [.claim 0 .default oneConfig { claim := ⟨0, 0⟩ }]).Logs (.config (-1) 1) :=
      ⟨0, by decide +kernel⟩
    exact absurd (h _ hlogs) (by decide)

end OpenUsb.IfcBounds
