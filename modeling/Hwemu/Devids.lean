import Hwemu.ReadBack

/-!
# Device ids

`parse_devid` keeps the interface number of an id in 32 bits. An id is taken apart as its low 56 bits are,
whatever stands above them; a sign-extended `int` has nothing there that matters.
-/

namespace Hwemu

theorem ofNat?_eq_some_iff {n : Nat} {iface : HweIface} : HweIface.ofNat? n = some iface ↔ n = iface.toNat := by
  constructor
  · intro h
    rcases n with _ | _ | _ | _ | n
    · exact congrArg HweIface.toNat (Option.some.inj h)
    · exact congrArg HweIface.toNat (Option.some.inj h)
    · exact congrArg HweIface.toNat (Option.some.inj h)
    · exact congrArg HweIface.toNat (Option.some.inj h)
    · exact absurd h.symm (Option.some_ne_none iface)
  · rintro rfl
    exact ofNat?_toNat iface

theorem HweIface.toNat_lt_count (iface : HweIface) : iface.toNat < HweIface.count := by
  cases iface <;> decide

/-- An id is accepted for its low 56 bits. -/
theorem parseDevid_eq_some_iff {devid : Nat} {iface : HweIface} {idx : Nat} :
    parseDevid devid = some (iface, idx) ↔
      idx < hweMaxDevices ∧ devid % 2 ^ 56 = iface.toNat * 2 ^ 24 + idx := by
  have hlow : devid % 2 ^ 56 = devid / 2 ^ 24 % 2 ^ 32 * 2 ^ 24 + devid % 2 ^ 24 := by omega
  have hcount := iface.toNat_lt_count
  unfold HweIface.count at hcount
  unfold parseDevid
  dsimp only
  rw [hlow]
  constructor
  · intro h
    split at h
    · exact absurd h.symm (Option.some_ne_none _)
    · rename_i hrange
      obtain ⟨iface', hiface, heq⟩ := Option.map_eq_some_iff.mp h
      obtain ⟨rfl, rfl⟩ := Prod.mk.inj heq
      rw [ofNat?_eq_some_iff.mp hiface]
      exact ⟨lt_of_not_ge (not_or.mp hrange).2, rfl⟩
  · rintro ⟨hidx, heq⟩
    unfold hweMaxDevices at hidx
    have hhigh : devid / 2 ^ 24 % 2 ^ 32 = iface.toNat := by omega
    have hrest : devid % 2 ^ 24 = idx := by omega
    have hrange : ¬(iface.toNat ≥ HweIface.count ∨ idx ≥ hweMaxDevices) := by
      unfold HweIface.count hweMaxDevices
      omega
    rw [hhigh, hrest, if_neg hrange, ofNat?_toNat, Option.map_some]

/-- The id is accepted just when it was made of an interface and an index in range, and these are what it
is taken apart to. -/
def DecodesExactly (devid : Nat) : Prop :=
  ∀ iface idx, parseDevid devid = some (iface, idx) ↔ idx < hweMaxDevices ∧ (devid : Int) = makeDevid iface idx

theorem decodesExactly_iff (devid : Nat) : DecodesExactly devid ↔ (devid < 2 ^ 56 ∨
    ∀ iface idx, idx < hweMaxDevices → ((devid % 2 ^ 56 : Nat) : Int) ≠ makeDevid iface idx) := by
  constructor
  · intro h
    by_contra hnot
    obtain ⟨hhigh, hlow⟩ := not_or.mp hnot
    push Not at hlow
    obtain ⟨iface, idx, hidx, hmade⟩ := hlow
    have hcount := iface.toNat_lt_count
    unfold HweIface.count at hcount
    unfold makeDevid at hmade
    have haccepted := parseDevid_eq_some_iff.mpr ⟨hidx, (by omega : devid % 2 ^ 56 = iface.toNat * 2 ^ 24 + idx)⟩
    have hexact := ((h iface idx).mp haccepted).2
    unfold hweMaxDevices at hidx
    unfold makeDevid at hexact
    omega
  · intro hcond iface idx
    rw [parseDevid_eq_some_iff]
    have hcount := iface.toNat_lt_count
    unfold HweIface.count at hcount
    refine and_congr_right fun hidx => ?_
    have hother := hcond.imp_right fun hnot => hnot iface idx hidx
    unfold hweMaxDevices at hidx
    unfold makeDevid at hother ⊢
    constructor
    · intro heq
      rcases hother with hsmall | hne
      · omega
      · exact absurd (by exact_mod_cast heq) hne
    · intro heq
      omega

/-- A sign-extended `int` that is negative has an interface number out of range. -/
theorem decodesExactly_int (id : Int32) : DecodesExactly (toSizeT id.toInt) := by
  have hlow := Int32.le_toInt id
  have hhigh := Int32.toInt_lt id
  rw [decodesExactly_iff]
  unfold toSizeT
  by_cases hneg : id.toInt < 0
  · refine Or.inr fun iface idx hidx => ?_
    have hcount := iface.toNat_lt_count
    unfold HweIface.count at hcount
    unfold hweMaxDevices at hidx
    unfold makeDevid
    omega
  · exact Or.inl (by omega)

/-- Two ids for the same device are the same up to what stands above the low 56 bits. -/
theorem parseDevid_same {devid devid' : Nat} {r : HweIface × Nat} (h : parseDevid devid = some r)
    (h' : parseDevid devid' = some r) : devid % 2 ^ 56 = devid' % 2 ^ 56 :=
  (parseDevid_eq_some_iff.mp h).2.trans (parseDevid_eq_some_iff.mp h').2.symm

/-- **Device ids.** Which `unsigned long` values, and that all `int` values, are accepted just as they are
made, and when two accepted ids of one device are the same. -/
theorem devid_decodes_iff (d : UInt64) (id : Int32) :
    (DecodesExactly d.toNat ↔ (d.toNat < 2 ^ 56 ∨
        ∀ iface idx, idx < hweMaxDevices → ((d.toNat % 2 ^ 56 : Nat) : Int) ≠ makeDevid iface idx)) ∧
      DecodesExactly (toSizeT id.toInt) ∧
      ∀ (d' : UInt64) (r : HweIface × Nat), parseDevid d.toNat = some r → parseDevid d'.toNat = some r →
        (d = d' ↔ d.toNat / 2 ^ 56 = d'.toNat / 2 ^ 56) := by
  refine ⟨decodesExactly_iff d.toNat, decodesExactly_int id, fun d' r h h' => ?_⟩
  have hlow := parseDevid_same h h'
  rw [← UInt64.toNat_inj]
  omega

/-- The id 2 ^ 56 is accepted for the device `tty0`, whose id is 0. -/
theorem devid_not_exact : ¬DecodesExactly (2 ^ 56 : UInt64).toNat ∧
    parseDevid (2 ^ 56 : UInt64).toNat = some (.tty, 0) ∧ parseDevid (0 : UInt64).toNat = some (.tty, 0) := by
  have haccepted : parseDevid (2 ^ 56 : UInt64).toNat = some (.tty, 0) := by decide
  refine ⟨fun hexact => ?_, haccepted, by decide⟩
  exact absurd ((hexact .tty 0).mp haccepted).2 (by decide)

end Hwemu
