import Hwemu.Teardown

/-!
# Where a load or an unload has got to

While the module is loaded, every interface is as the operations left it or as it was before its files were
made. While it is unloaded, or a load is rolled back, an interface stays so until `cleanup_iface` begins with
it; from then on no operation may be at work on it.
-/

namespace Hwemu

variable {w : Nat} {HZ : Nat} {k k' : Kernel w} {s s' : TimedModule w} {jiff : BitVec w} {iface : HweIface}

/-- The interface that `cleanup_iface` is called for. -/
def TimedModule.cleaning (s : TimedModule w) : Option HweIface :=
  match s.todo with
  | .cleanupIface iface :: _ => some iface
  | .shutdown dev _ :: _ => some dev.iface
  | .kobjectPutIface iface :: _ => some iface
  | _ => none

/-! ### Statements -/

/-- A statement of `hwemu_exit`, or of the cleanup after a failed load, outside `cleanup_iface`, or the loop of
`cleanup_iface`. -/
def LoadStmt.isCleanup : LoadStmt w → Bool
  | cleanupUnit _ => true
  | delTimerSync => true
  | cleanupIface _ => true
  | ksetUnregister => true
  | _ => false

def LoadStmt.isInit : LoadStmt w → Bool
  | initUnit _ => true
  | addTimer => true
  | ksetCreateAndAdd => true
  | initListHead _ => true
  | bitmapZero _ => true
  | semaInit _ => true
  | kobjectInitAndAdd _ => true
  | _ => false

/-- What is initialized before a semaphore, what before the files are made, and what fails only before the
timer is started. -/
def LoadStmt.Before : LoadStmt w → LoadStmt w → Prop
  | semaInit iface, stmt => stmt ≠ initListHead iface
  | kobjectInitAndAdd iface, stmt => stmt ≠ initListHead iface ∧ stmt ≠ bitmapZero iface ∧ stmt ≠ semaInit iface
  | addTimer, stmt => ∀ back ∈ stmt.rollback, delTimerSync ∈ back
  | _, _ => True

theorem hwemuInitStmts_before : (hwemuInitStmts (w := w)).Pairwise LoadStmt.Before := by
  simp [hwemuInitStmts, HweUnit.all, initStmts, initIfaceStmts, HweIface.all, LoadStmt.Before, LoadStmt.rollback,
    cleanupBefore, cleanupStmts]

theorem cleanupStmts_isCleanup (unit : HweUnit) : ∀ stmt ∈ cleanupStmts (w := w) unit, stmt.isCleanup = true := by
  cases unit <;> simp [cleanupStmts, HweIface.all, LoadStmt.isCleanup]

theorem cleanupBefore_isCleanup (unit : HweUnit) :
    ∀ stmt ∈ cleanupBefore (w := w) unit, stmt.isCleanup = true := by
  intro stmt hstmt
  obtain ⟨u, _, hstmt⟩ := List.mem_flatMap.mp hstmt
  exact cleanupStmts_isCleanup u stmt hstmt

theorem hwemuExitStmts_isCleanup : ∀ stmt ∈ hwemuExitStmts (w := w), stmt.isCleanup = true := by
  intro stmt hstmt
  obtain ⟨u, _, hstmt⟩ := List.mem_flatMap.mp hstmt
  exact cleanupStmts_isCleanup u stmt hstmt

theorem rollback_isCleanup {stmt : LoadStmt w} {back : List (LoadStmt w)} (h : stmt.rollback = some back) :
    ∀ stmt ∈ back, stmt.isCleanup = true := by
  cases stmt with
  | initUnit unit =>
      cases unit with
      | i2c => exact absurd h.symm (Option.some_ne_none _)
      | net => exact absurd h.symm (Option.some_ne_none _)
      | _ => exact Option.some.inj h ▸ cleanupBefore_isCleanup _
  | ksetCreateAndAdd => exact Option.some.inj h ▸ cleanupBefore_isCleanup _
  | kobjectInitAndAdd iface =>
      obtain rfl := Option.some.inj h
      intro stmt hstmt
      rcases List.mem_append.mp hstmt with hiface | hunit
      · obtain ⟨_, _, rfl⟩ := List.mem_map.mp hiface
        rfl
      · exact cleanupBefore_isCleanup _ stmt hunit
  | _ => exact absurd h.symm (Option.some_ne_none _)

theorem rollback_of_isCleanup {stmt : LoadStmt w} (h : stmt.isCleanup = true) : stmt.rollback = none := by
  cases stmt <;> first | rfl | exact absurd h Bool.false_ne_true

theorem hwemuInitStmts_isInit : ∀ stmt ∈ hwemuInitStmts (w := w), stmt.isInit = true := by
  simp [hwemuInitStmts, HweUnit.all, initStmts, initIfaceStmts, HweIface.all, LoadStmt.isInit]

/-! ### What a tick enters -/

/-- The interfaces that a tick enters. -/
def TimedModule.free (s : TimedModule w) (iface : HweIface) : Bool :=
  !s.isWorking iface && decide (s.k.sems iface ≠ 0)

theorem TimedModule.store_of_free (h : s.free iface = true) :
    s.working iface = none ∧ s.k.sems iface ≠ 0 ∧ s.store.ifaces iface = s.k.ifaces iface := by
  simp only [free, isWorking, Bool.and_eq_true, Bool.not_eq_true', Option.isSome_eq_false_iff,
    Option.isNone_iff_eq_none, decide_eq_true_eq] at h
  refine ⟨h.1, h.2, ?_⟩
  simp [store, h.1]

/-- A semaphore counts to one, so the tick cannot take it while an operation is at work. -/
theorem TimedModule.sems_store (hle : ∀ iface, s.k.sems iface ≤ 1) (iface : HweIface) :
    s.store.sems iface ≠ 0 ↔ s.free iface = true := by
  cases hworking : s.isWorking iface with
  | true =>
      have hsome : (s.working iface).isSome = true := hworking
      simp only [free, hworking, store, hsome, Bool.not_true, Bool.false_and, if_true]
      exact iff_of_false (not_not.mpr (Nat.sub_eq_zero_of_le (hle iface))) Bool.false_ne_true
  | false =>
      have hnone : (s.working iface).isSome = false := hworking
      simp [free, hworking, store, hnone]

theorem TimedModule.store_of_sem (hle : ∀ iface, s.k.sems iface ≤ 1) (hsem : s.store.sems iface ≠ 0) :
    s.working iface = none ∧ s.k.sems iface ≠ 0 ∧ s.store.ifaces iface = s.k.ifaces iface :=
  store_of_free ((sems_store hle iface).mp hsem)

theorem TimedModule.nodup_store (hle : ∀ iface, s.k.sems iface ≤ 1) (hnodup : s.k.AddrsNodup) (iface : HweIface)
    (hsem : s.store.sems iface ≠ 0) : ((s.store.ifaces iface).devList.map (·.addr)).Nodup := by
  rw [(store_of_sem hle hsem).2.2]
  exact hnodup iface

theorem TimedModule.tick_ifaces (hle : ∀ iface, s.k.sems iface ≤ 1) (hnodup : s.k.AddrsNodup) (jiff : BitVec w) :
    (s.tick jiff).k.ifaces = fun iface => if s.free iface then (s.k.ifaces iface).ticked jiff else s.k.ifaces iface := by
  funext iface
  simp only [tick]
  rw [timerFunc_entered jiff (nodup_store hle hnodup)]
  simp only [sems_store hle]
  by_cases hfree : s.free iface = true
  · obtain ⟨hworking, _, hstore⟩ := store_of_free hfree
    simp [hfree, isWorking, hworking, hstore]
  · cases hworking : s.working iface with
    | none => simp [hfree, isWorking, hworking, store]
    | some ifc => simp [hfree, isWorking, hworking]

/-- A tick of the part of the store that an operation works on. -/
theorem StoreInv.only_ticked {free : HweIface → Bool} (h : StoreInv (k.only iface))
    (hifaces : k'.ifaces = fun iface => if free iface then (k.ifaces iface).ticked jiff else k.ifaces iface)
    (hheap : k'.heap = k.heap) : StoreInv (k'.only iface) := by
  have hpart : (k'.only iface).ifaces =
      fun j => if free j then ((k.only iface).ifaces j).ticked jiff else (k.only iface).ifaces j := by
    funext j
    by_cases hj : j = iface
    · subst hj
      simp only [Kernel.only, if_true, hifaces]
    · simp only [Kernel.only, if_neg hj]
      split
      · rfl
      · rfl
  exact h.ticked hpart hheap

/-! ### Operations at work -/

theorem isWorking_setWorking (s : TimedModule w) (iface j : HweIface) (ifc : Option (Iface w)) :
    (s.setWorking iface ifc).isWorking j = if j = iface then ifc.isSome else s.isWorking j := by
  unfold TimedModule.setWorking TimedModule.isWorking
  dsimp only
  by_cases hj : j = iface
  · rw [if_pos hj, hj, Function.update_self]
  · rw [if_neg hj, Function.update_of_ne hj]

/-! ### Loading -/

/-- `hwemu_init` is at work, or has returned 0. -/
structure Loading (s : TimedModule w) : Prop where
  up : s.up = true
  suffix : s.todo <:+ hwemuInitStmts
  order : InOrder none 0 s.k
  heads : ∀ iface, s.listHead iface = true ∨ .initListHead iface ∈ s.todo
  sems : ∀ iface, s.k.sems iface = 1 ∧ s.listHead iface = true ∨ s.k.sems iface = 0 ∧ .semaInit iface ∈ s.todo
  files : ∀ iface, s.files iface = true → ∀ stmt ∈ s.todo, LoadStmt.Before (.kobjectInitAndAdd iface) stmt
  unused : ∀ iface, s.files iface = false → s.k.ifaces iface = { devList := [], devIndexes := 0 }
  settled : ∀ iface, StoreInv (s.k.only iface)
  working : ∀ iface, s.isWorking iface = true → s.files iface = true
  timer : s.timer = true → ∀ stmt ∈ s.todo, ∀ back ∈ stmt.rollback, .delTimerSync ∈ back

namespace Loading

theorem start (next : Nat) : Loading { TimedModule.zeroed (w := w) next with up := true, todo := hwemuInitStmts } := by
  have hmem : ∀ iface, .initListHead iface ∈ hwemuInitStmts (w := w) ∧ .semaInit iface ∈ hwemuInitStmts (w := w) := by
    intro iface
    cases iface <;> simp [hwemuInitStmts, HweUnit.all, initStmts, initIfaceStmts, HweIface.all]
  refine ⟨rfl, List.suffix_refl _, .of_empty rfl rfl, fun iface => Or.inr (hmem iface).1,
    fun iface => Or.inr ⟨rfl, (hmem iface).2⟩, fun iface hfiles => absurd hfiles Bool.false_ne_true, fun iface _ => rfl,
    fun iface => .of_empty ?_, fun iface hworking => absurd hworking Bool.false_ne_true,
    fun htimer => absurd htimer Bool.false_ne_true⟩
  funext j
  exact ite_self _

theorem le_one (h : Loading s) (iface : HweIface) : s.k.sems iface ≤ 1 := by
  rcases h.sems iface with ⟨hone, _⟩ | ⟨hzero, _⟩
  · exact hone.le
  · exact hzero.le.trans (Nat.zero_le 1)

/-- The semaphore is there before the files are. -/
theorem sem_of_files (h : Loading s) (hfiles : s.files iface = true) : s.k.sems iface = 1 := by
  refine ((h.sems iface).resolve_right fun hzero => ?_).1
  exact (h.files iface hfiles _ hzero.2).2.2 rfl

/-- A statement that leaves the module as it is, or is only felt once it is done. -/
theorem tail {stmt : LoadStmt w} {todo : List (LoadStmt w)} (h : Loading s) (htodo : s.todo = stmt :: todo)
    (hlist : ∀ iface, stmt ≠ .initListHead iface) (hsema : ∀ iface, stmt ≠ .semaInit iface) :
    Loading { s with todo := todo } := by
  obtain ⟨hup, hsuffix, horder, hheads, hsems, hfiles, hunused, hsettled, hworking, htimer⟩ := h
  rw [htodo] at hsuffix hheads hsems hfiles htimer
  refine ⟨hup, (List.suffix_cons stmt todo).trans hsuffix, horder, fun iface => ?_, fun iface => ?_,
    fun iface hf st hst => hfiles iface hf st (List.mem_cons_of_mem stmt hst), hunused, hsettled, hworking,
    fun ht st hst => htimer ht st (List.mem_cons_of_mem stmt hst)⟩
  · refine (hheads iface).imp_right fun hmem => ?_
    exact (List.mem_cons.mp hmem).resolve_left fun heq => hlist iface heq.symm
  · refine (hsems iface).imp_right fun hmem => ⟨hmem.1, ?_⟩
    exact (List.mem_cons.mp hmem.2).resolve_left fun heq => hsema iface heq.symm

/-- An interface whose files are not there yet is as it was. -/
theorem setIface_unused (h : Loading s) (hfiles : s.files iface = false) {ifc : Iface w}
    (hifc : ifc = { devList := [], devIndexes := 0 }) : s.k.setIface iface ifc = s.k := by
  rw [hifc, ← h.unused iface hfiles, Kernel.setIface, Function.update_eq_self]

/-- **One statement of `hwemu_init`.** -/
theorem exec {stmt : LoadStmt w} {todo : List (LoadStmt w)} (h : Loading s) (htodo : s.todo = stmt :: todo) :
    Loading (stmt.exec { s with todo := todo }) := by
  have hmem : stmt ∈ hwemuInitStmts := h.suffix.subset (htodo ▸ List.mem_cons_self)
  have hhead : stmt ∈ s.todo := htodo ▸ List.mem_cons_self
  have hbefore : ∀ st ∈ todo, stmt.Before st := by
    have hpairwise := hwemuInitStmts_before.sublist h.suffix.sublist
    rw [htodo] at hpairwise
    exact (List.pairwise_cons.mp hpairwise).1
  cases stmt with
  | initListHead iface =>
      have hfiles : s.files iface = false :=
        Bool.eq_false_iff.mpr fun hf => (h.files iface hf _ hhead).1 rfl
      have hk : s.k.setIface iface { s.k.ifaces iface with devList := [] } = s.k :=
        h.setIface_unused hfiles (by rw [h.unused iface hfiles])
      simp only [LoadStmt.exec, hk]
      obtain ⟨hup, hsuffix, horder, hheads, hsems, hfiles, hunused, hsettled, hworking, htimer⟩ := h
      rw [htodo] at hsuffix hheads hsems hfiles htimer
      have hmark : ∀ j, s.listHead j = true → Function.update s.listHead iface true j = true := by
        intro j hj
        by_cases hji : j = iface
        · rw [hji, Function.update_self]
        · rw [Function.update_of_ne hji, hj]
      refine ⟨hup, (List.suffix_cons _ todo).trans hsuffix, horder, fun j => ?_, fun j => ?_,
        fun j hj st hst => hfiles j hj st (List.mem_cons_of_mem _ hst), hunused, hsettled, hworking,
        fun ht st hst => htimer ht st (List.mem_cons_of_mem _ hst)⟩
      · rcases hheads j with hj | hj
        · exact Or.inl (hmark j hj)
        · rcases List.mem_cons.mp hj with heq | hj
          · injection heq with heq
            refine Or.inl ?_
            rw [heq]
            exact Function.update_self iface true s.listHead
          · exact Or.inr hj
      · refine (hsems j).imp (fun hj => ⟨hj.1, hmark j hj.2⟩) fun hj => ⟨hj.1, ?_⟩
        exact (List.mem_cons.mp hj.2).resolve_left (by simp)
  | bitmapZero iface =>
      have hfiles : s.files iface = false :=
        Bool.eq_false_iff.mpr fun hf => (h.files iface hf _ hhead).2.1 rfl
      have hk : s.k.setIface iface { s.k.ifaces iface with devIndexes := 0 } = s.k :=
        h.setIface_unused hfiles (by rw [h.unused iface hfiles])
      simp only [LoadStmt.exec, hk]
      exact h.tail htodo (by simp) (by simp)
  | semaInit iface =>
      obtain ⟨hup, hsuffix, horder, hheads, hsems, hfiles, hunused, hsettled, hworking, htimer⟩ := h
      rw [htodo] at hsuffix hheads hsems hfiles htimer
      have hheads' : ∀ j, s.listHead j = true ∨ .initListHead j ∈ todo :=
        fun j => (hheads j).imp_right fun hj => (List.mem_cons.mp hj).resolve_left (by simp)
      refine ⟨hup, (List.suffix_cons _ todo).trans hsuffix, { horder with }, hheads', fun j => ?_,
        fun j hj st hst => hfiles j hj st (List.mem_cons_of_mem _ hst), hunused,
        fun j => (hsettled j).only_congr rfl le_rfl, hworking,
        fun ht st hst => htimer ht st (List.mem_cons_of_mem _ hst)⟩
      by_cases hj : j = iface
      · subst hj
        refine Or.inl ⟨Function.update_self .., (hheads' j).resolve_right fun hinit => ?_⟩
        exact hbefore _ hinit rfl
      · have hsame : (s.k.setSem iface 1).sems j = s.k.sems j := Function.update_of_ne hj ..
        change (s.k.setSem iface 1).sems j = 1 ∧ _ ∨ (s.k.setSem iface 1).sems j = 0 ∧ _
        rw [hsame]
        refine (hsems j).imp_right fun hzero => ⟨hzero.1, ?_⟩
        refine (List.mem_cons.mp hzero.2).resolve_left fun heq => hj ?_
        injection heq
  | kobjectInitAndAdd iface =>
      have htail := h.tail htodo (by simp) (by simp)
      have hfiles : ∀ j, Function.update s.files iface true j = false → s.files j = false := by
        intro j hj
        by_cases hji : j = iface
        · rw [hji, Function.update_self] at hj
          exact absurd hj.symm Bool.false_ne_true
        · rwa [Function.update_of_ne hji] at hj
      refine { htail with files := fun j hj => ?_, unused := fun j hj => h.unused j (hfiles j hj), working := fun j hj => ?_ }
      · by_cases hji : j = iface
        · subst hji
          exact hbefore
        · have hj' : Function.update s.files iface true j = true := hj
          rw [Function.update_of_ne hji] at hj'
          exact htail.files j hj'
      · refine Bool.not_eq_false _ ▸ fun hnone => ?_
        exact absurd ((hfiles j hnone).symm.trans (h.working j hj)) Bool.false_ne_true
  | addTimer =>
      have htail := h.tail htodo (by simp) (by simp)
      exact { htail with timer := fun _ => hbefore }
  | initUnit unit => exact h.tail htodo (by simp) (by simp)
  | ksetCreateAndAdd => exact h.tail htodo (by simp) (by simp)
  | _ => exact absurd (hwemuInitStmts_isInit _ hmem) Bool.false_ne_true

/-- An operation takes the semaphore, works or releases it. -/
theorem setWorking (h : Loading s) (ifc : Option (Iface w)) (hfiles : ifc.isSome = true → s.files iface = true) :
    Loading (s.setWorking iface ifc) := by
  refine { h with working := fun j hj => ?_ }
  rw [isWorking_setWorking] at hj
  split at hj
  · rename_i heq
    exact heq ▸ hfiles hj
  · exact h.working j hj

/-- **An operation is over.** -/
theorem finish {op : Op w} {ret : Int} {done : Kernel w} (h : Loading s) (hworking : s.isWorking iface = true)
    (hrun : Hwemu.exec HZ op (s.k.only iface) = .ok (ret, done)) : Loading { s with k := s.k.put iface done } := by
  obtain ⟨horder, hstore, hnext, _⟩ := h.order.put (h.settled iface)
    (fun dev hdev => absurd hdev (Option.not_mem_none dev)) hrun
  have hfiles := h.working iface hworking
  refine { h with order := horder, unused := fun j hj => ?_, settled := fun j => ?_ }
  · have hne : j ≠ iface := by
      rintro rfl
      exact absurd (hj.symm.trans hfiles) Bool.false_ne_true
    exact (Function.update_of_ne hne ..).trans (h.unused j hj)
  · by_cases hj : j = iface
    · subst hj
      exact hstore
    · exact (h.settled j).only_congr (Function.update_of_ne hj ..) hnext

theorem tick (h : Loading s) (jiff : BitVec w) : Loading (s.tick jiff) := by
  have hifaces := TimedModule.tick_ifaces h.le_one h.order.nodup jiff
  refine { h with order := h.order.ticked hifaces rfl, unused := fun j hj => ?_,
                  settled := fun j => (h.settled j).only_ticked hifaces rfl }
  rw [hifaces]
  dsimp only
  rw [h.unused j hj]
  exact ite_self _

end Loading

/-! ### Unloading -/

/-- Where `hwemu_exit`, or the cleanup after a failed load, has got to: between two calls of `shutdown_dev`, at the
end of `cleanup_iface`, or within `shutdown_dev`, with the statements `done` behind it. -/
inductive Stage (s : TimedModule w) : Prop
  | between (order : InOrder none 0 s.k) (htodo : ∀ stmt ∈ s.todo, stmt.isCleanup = true)
  | closing {iface : HweIface} {tail : List (LoadStmt w)} (order : InOrder none 0 s.k)
      (htodo : s.todo = .kobjectPutIface iface :: tail) (htail : ∀ stmt ∈ tail, stmt.isCleanup = true)
      (hnil : (s.k.ifaces iface).devList = []) (hidle : s.isWorking iface = false)
  | within {dev : Dev w} {done rest : List (ShutdownStmt w)} {tail : List (LoadStmt w)} {priv : Nat}
      (order : InOrder (some dev) (rest.map (ShutdownStmt.frees dev)).sum s.k)
      (hstmts : done ++ rest = shutdownStmts dev) (hrest : rest ≠ [])
      (htodo : s.todo = rest.map (.shutdown dev) ++ .cleanupIface dev.iface :: tail)
      (htail : ∀ stmt ∈ tail, stmt.isCleanup = true) (howner : ∀ p ∈ dev.pairList, p.dev = dev.addr)
      (hpriv : dev.device = some priv) (hdestroyed : done ≠ [] → priv ∈ s.k.heap.freed)
      (hgone : .listDel ∈ done → ∀ d ∈ (s.k.ifaces dev.iface).devList, d.addr ≠ dev.addr)
      (hidle : s.isWorking dev.iface = false)

structure Leaving (s : TimedModule w) : Prop where
  up : s.up = false
  heads : ∀ iface, s.k.sems iface ≠ 0 → s.listHead iface = true
  le_one : ∀ iface, s.k.sems iface ≤ 1
  unlocked : ∀ iface, (s.k.ifaces iface).devList ≠ [] → s.k.sems iface ≠ 0
  timer : s.timer = true → .delTimerSync ∈ s.todo
  working : ∀ iface, s.isWorking iface = true → s.files iface = true
  files : ∀ iface, s.files iface = true → s.k.sems iface ≠ 0
  settled : ∀ iface, s.files iface = true → s.cleaning ≠ some iface ∨ s.isWorking iface = true →
    StoreInv (s.k.only iface)
  stage : Stage s

/-- The load fails or the unload begins. -/
theorem Loading.leave {back : List (LoadStmt w)} (h : Loading s) (hback : ∀ stmt ∈ back, stmt.isCleanup = true)
    (htimer : s.timer = true → .delTimerSync ∈ back) : Leaving { s with up := false, todo := back } := by
  refine ⟨rfl, fun iface hsem => ?_, h.le_one, fun iface hne => ?_, htimer, h.working, fun iface hfiles => ?_,
    fun iface _ _ => h.settled iface, .between h.order hback⟩
  · exact ((h.sems iface).resolve_right fun hzero => hsem hzero.1).2
  · have hfiles : s.files iface = true := by
      refine Bool.not_eq_false _ ▸ fun hnone => hne ?_
      change (s.k.ifaces iface).devList = []
      rw [h.unused iface hnone]
    exact (h.sem_of_files hfiles).trans_ne Nat.one_ne_zero
  · exact (h.sem_of_files hfiles).trans_ne Nat.one_ne_zero

/-! ### The statements of `shutdown_dev` that are left -/

/-- The record of the device is freed last. -/
theorem addr_mem_frees {dev : Dev w} {done rest : List (ShutdownStmt w)} (hstmts : done ++ rest = shutdownStmts dev)
    (hrest : rest ≠ []) : dev.addr ∈ (rest.map (ShutdownStmt.frees dev)).sum := by
  have hlast : rest.getLast? = some .kobjectPut := by
    rw [← List.getLast?_append_of_ne_nil done hrest, hstmts]
    simp [shutdownStmts, List.getLast?_cons, List.getLast?_append]
  exact mem_sum_map.mpr ⟨.kobjectPut, List.mem_of_getLast? hlast, Multiset.mem_singleton_self dev.addr⟩

theorem cleaning_within {dev : Dev w} {rest : List (ShutdownStmt w)} {tail : List (LoadStmt w)}
    (htodo : s.todo = rest.map (.shutdown dev) ++ .cleanupIface dev.iface :: tail) : s.cleaning = some dev.iface := by
  unfold TimedModule.cleaning
  rw [htodo]
  cases rest with
  | nil => rfl
  | cons st rest => rfl

namespace Leaving

/-! ### One statement of `hwemu_exit` -/

/-- The next statement between two calls of `shutdown_dev`. -/
theorem exec_between {stmt : LoadStmt w} {todo : List (LoadStmt w)} (h : Leaving s) (htodo : s.todo = stmt :: todo)
    (hidle : ∀ iface ∈ s.cleaning, s.isWorking iface = false) (horder : InOrder none 0 s.k)
    (hcleanup : ∀ st ∈ s.todo, st.isCleanup = true) : Leaving (stmt.exec { s with todo := todo }) := by
  obtain ⟨hup, hheads, hle, hunlocked, htimer, hworking, hfiles, hsettled, _⟩ := h
  rw [htodo] at hcleanup htimer
  have htail : ∀ st ∈ todo, st.isCleanup = true := fun st hst => hcleanup st (List.mem_cons_of_mem stmt hst)
  have hquiet : s.cleaning = none → (s.timer = true → .delTimerSync ∈ todo) → Leaving { s with todo := todo } := by
    intro hnone ht
    refine ⟨hup, hheads, hle, hunlocked, ht, hworking, hfiles, fun iface hf _ => hsettled iface hf (Or.inl ?_),
      .between horder htail⟩
    rw [hnone]
    exact (Option.some_ne_none iface).symm
  have hlater : stmt ≠ .delTimerSync → s.timer = true → .delTimerSync ∈ todo := by
    intro hne ht
    exact (List.mem_cons.mp (htimer ht)).resolve_left fun heq => hne heq.symm
  cases stmt with
  | delTimerSync =>
      have hnone : s.cleaning = none := by rw [TimedModule.cleaning, htodo]
      refine ⟨hup, hheads, hle, hunlocked, fun ht => absurd ht Bool.false_ne_true, hworking, hfiles,
        fun iface hf _ => hsettled iface hf (Or.inl ?_), .between horder htail⟩
      rw [hnone]
      exact (Option.some_ne_none iface).symm
  | cleanupIface iface =>
      have hcleaning : s.cleaning = some iface := by rw [TimedModule.cleaning, htodo]
      have hnotWorking := hidle iface hcleaning
      simp only [LoadStmt.exec]
      cases hlist : (s.k.ifaces iface).devList with
      | nil =>
          refine ⟨hup, hheads, hle, hunlocked, fun ht => ?_, hworking, hfiles, fun j hf hj => hsettled j hf ?_,
            .closing horder rfl htail hlist hnotWorking⟩
          · exact List.mem_cons_of_mem _ (hlater (by simp) ht)
          · rw [hcleaning]
            exact hj
      | cons dev devs =>
          have hdev : dev ∈ (s.k.ifaces iface).devList := hlist ▸ List.mem_cons_self
          have hhome := horder.home iface dev hdev
          subst hhome
          obtain ⟨priv, hpriv⟩ := horder.exists_device hdev
          have hstart := horder.start hdev
          rw [← sum_frees_shutdownStmts] at hstart
          have hcleaning' := cleaning_within
            (s := { s with todo := (shutdownStmts dev).map (.shutdown dev) ++ .cleanupIface dev.iface :: todo }) rfl
          refine ⟨hup, hheads, hle, hunlocked, fun ht => ?_, hworking, hfiles, fun j hf hj => hsettled j hf ?_, ?_⟩
          · exact List.mem_append_right _ (htimer ht)
          · rw [hcleaning]
            rwa [hcleaning'] at hj
          · exact .within hstart (List.nil_append (shutdownStmts dev)) (List.cons_ne_nil _ _) rfl htail
              (fun p hp => horder.owner dev (Kernel.mem_devs_of_mem hdev) p hp) hpriv (fun hne => absurd rfl hne)
              (fun hmem => absurd hmem List.not_mem_nil) hnotWorking
  | cleanupUnit unit => exact hquiet (by rw [TimedModule.cleaning, htodo]) (hlater (by simp))
  | ksetUnregister => exact hquiet (by rw [TimedModule.cleaning, htodo]) (hlater (by simp))
  | _ => exact absurd (hcleanup _ List.mem_cons_self) Bool.false_ne_true

/-- The end of `cleanup_iface`: no device is left, and the files go. -/
theorem exec_closing {todo : List (LoadStmt w)} (h : Leaving s) (htodo : s.todo = .kobjectPutIface iface :: todo)
    (horder : InOrder none 0 s.k) (htail : ∀ st ∈ todo, st.isCleanup = true)
    (hnil : (s.k.ifaces iface).devList = []) (hidle : s.isWorking iface = false) :
    Leaving (LoadStmt.exec { s with todo := todo } (.kobjectPutIface iface)) := by
  have hcleaning : s.cleaning = some iface := by rw [TimedModule.cleaning, htodo]
  obtain ⟨hup, hheads, hle, hunlocked, htimer, hworking, hfiles, hsettled, _⟩ := h
  rw [htodo] at htimer
  have hgone : Function.update s.files iface (!(s.k.ifaces iface).devList.isEmpty) = Function.update s.files iface false := by
    rw [hnil]
    rfl
  simp only [LoadStmt.exec, hgone]
  have hkept : ∀ j, Function.update s.files iface false j = true → j ≠ iface ∧ s.files j = true := by
    intro j hj
    by_cases hji : j = iface
    · rw [hji, Function.update_self] at hj
      exact absurd hj Bool.false_ne_true
    · rw [Function.update_of_ne hji] at hj
      exact ⟨hji, hj⟩
  refine ⟨hup, hheads, hle, hunlocked, fun ht => ?_, fun j hj => ?_, fun j hj => hfiles j (hkept j hj).2,
    fun j hj _ => ?_, .between horder htail⟩
  · exact (List.mem_cons.mp (htimer ht)).resolve_left (by simp)
  · have hji : j ≠ iface := by
      rintro rfl
      exact absurd (hidle.symm.trans hj) Bool.false_ne_true
    exact (Function.update_of_ne hji ..).trans (hworking j hj)
  · obtain ⟨hji, hf⟩ := hkept j hj
    refine hsettled j hf (Or.inl ?_)
    rw [hcleaning]
    exact fun heq => hji (Option.some.inj heq).symm

/-- The next statement of `shutdown_dev`. -/
theorem exec_within {st : ShutdownStmt w} {tail : List (LoadStmt w)} {dev : Dev w} {done rest : List (ShutdownStmt w)}
    {priv : Nat} (h : Leaving s) (horder : InOrder (some dev) ((st :: rest).map (ShutdownStmt.frees dev)).sum s.k)
    (hstmts : done ++ st :: rest = shutdownStmts dev)
    (htodo : s.todo = (st :: rest).map (.shutdown dev) ++ .cleanupIface dev.iface :: tail)
    (htail : ∀ stmt ∈ tail, stmt.isCleanup = true) (howner : ∀ p ∈ dev.pairList, p.dev = dev.addr)
    (hpriv : dev.device = some priv) (hdestroyed : done ≠ [] → priv ∈ s.k.heap.freed)
    (hgone : .listDel ∈ done → ∀ d ∈ (s.k.ifaces dev.iface).devList, d.addr ≠ dev.addr)
    (hidle : s.isWorking dev.iface = false) :
    Leaving (LoadStmt.exec { s with todo := rest.map (.shutdown dev) ++ .cleanupIface dev.iface :: tail }
      (.shutdown dev st)) := by
  have hcleaning := cleaning_within htodo
  have hmem : st ∈ shutdownStmts dev := by
    rw [← hstmts]
    exact List.mem_append_right done List.mem_cons_self
  have haddr := addr_mem_frees hstmts (List.cons_ne_nil st rest)
  rw [List.map_cons, List.sum_cons] at horder haddr
  obtain ⟨horder', hreduces, hfreed⟩ := horder.exec (ShutdownStmt.of_mem howner hmem) haddr
  have hstmts' : (done ++ [st]) ++ rest = shutdownStmts dev := by
    rw [List.append_assoc]
    exact hstmts
  have hmemFreed : ∀ a, a ∈ (st.exec dev s.k).heap.freed ↔ a ∈ st.frees dev ∨ a ∈ s.k.heap.freed := by
    intro a
    rw [← Multiset.mem_coe, hfreed, Multiset.mem_add, Multiset.mem_coe]
  have hdestroyed' : priv ∈ (st.exec dev s.k).heap.freed := by
    refine (hmemFreed priv).mpr ?_
    cases done with
    | cons st' done => exact Or.inr (hdestroyed (List.cons_ne_nil st' done))
    | nil =>
        obtain ⟨rfl, _⟩ := List.cons.inj hstmts
        refine Or.inl ?_
        rw [ShutdownStmt.frees, hpriv]
        exact List.mem_singleton_self priv
  have hgone' : .listDel ∈ done ++ [st] → ∀ d ∈ ((st.exec dev s.k).ifaces dev.iface).devList, d.addr ≠ dev.addr := by
    intro hlist
    rcases List.mem_append.mp hlist with hold | hnew
    · intro d' hd'
      obtain ⟨d, hd, haddr, _⟩ := hreduces.devs d' hd'
      rw [haddr]
      exact hgone hold d hd
    · obtain rfl := List.mem_singleton.mp hnew
      exact unlinkDev_addr_ne
  obtain ⟨hup, hheads, hle, hunlocked, htimer, hworking, hfiles, hsettled, _⟩ := h
  have hsems : ∀ iface, (st.exec dev s.k).sems iface = s.k.sems iface := congrFun hreduces.sems
  refine ⟨hup, fun iface hsem => hheads iface (hsems iface ▸ hsem), fun iface => (hsems iface).trans_le (hle iface),
    fun iface hne => ?_, fun ht => ?_, hworking, fun iface hf => (hsems iface).trans_ne (hfiles iface hf),
    fun iface hf hcond => ?_, ?_⟩
  · refine (hsems iface).trans_ne (hunlocked iface fun hnil => hne ?_)
    by_cases hiface : iface = dev.iface
    · subst hiface
      have hsub := hreduces.addrs
      rw [hnil, List.map_nil, List.sublist_nil, List.map_eq_nil_iff] at hsub
      exact hsub
    · change ((st.exec dev s.k).ifaces iface).devList = []
      rw [hreduces.others iface hiface, hnil]
  · have hdel := htimer ht
    rw [htodo, List.map_cons, List.cons_append] at hdel
    exact (List.mem_cons.mp hdel).resolve_left (by simp)
  · have hne : iface ≠ dev.iface := by
      rintro rfl
      rcases hcond with hclean | hworks
      · exact hclean (cleaning_within rfl)
      · exact absurd (hidle.symm.trans hworks) Bool.false_ne_true
    refine (hsettled iface hf (Or.inl ?_)).only_congr (hreduces.others iface hne) hreduces.next.ge
    rw [hcleaning]
    exact fun heq => hne (Option.some.inj heq).symm
  · cases rest with
    | nil =>
        have hall : .listDel ∈ done ++ [st] := by
          rw [← List.append_nil (done ++ [st]), hstmts']
          simp [shutdownStmts]
        refine .between (horder'.finish (hgone' hall)) fun stmt hstmt => ?_
        rcases List.mem_cons.mp hstmt with rfl | hstmt
        · rfl
        · exact htail stmt hstmt
    | cons st' rest =>
        exact .within horder' hstmts' (List.cons_ne_nil st' rest) rfl htail howner hpriv (fun _ => hdestroyed') hgone'
          hidle

/-- **One statement of `hwemu_exit`**, while no operation is at work on the interface that is cleaned up. -/
theorem exec {stmt : LoadStmt w} {todo : List (LoadStmt w)} (h : Leaving s) (htodo : s.todo = stmt :: todo)
    (hidle : ∀ iface ∈ s.cleaning, s.isWorking iface = false) : Leaving (stmt.exec { s with todo := todo }) := by
  cases h.stage with
  | between horder hcleanup => exact h.exec_between htodo hidle horder hcleanup
  | closing horder hclosing htail hnil hquiet =>
      obtain ⟨rfl, rfl⟩ := List.cons.inj (htodo.symm.trans hclosing)
      exact h.exec_closing htodo horder htail hnil hquiet
  | @within dev done rest tail priv horder hstmts hrest hwithin htail howner hpriv hdestroyed hgone hquiet =>
      obtain ⟨st, rest, rfl⟩ := List.exists_cons_of_ne_nil hrest
      have hhead := htodo.symm.trans hwithin
      rw [List.map_cons, List.cons_append] at hhead
      obtain ⟨rfl, rfl⟩ := List.cons.inj hhead
      exact h.exec_within horder hstmts hwithin htail howner hpriv hdestroyed hgone hquiet

/-- A statement of `hwemu_exit` does not fail. -/
theorem rollback {stmt : LoadStmt w} {todo : List (LoadStmt w)} (h : Leaving s) (htodo : s.todo = stmt :: todo) :
    stmt.rollback = none := by
  cases h.stage with
  | between horder hcleanup =>
      refine rollback_of_isCleanup (hcleanup stmt ?_)
      rw [htodo]
      exact List.mem_cons_self
  | closing horder hclosing =>
      obtain ⟨rfl, _⟩ := List.cons.inj (htodo.symm.trans hclosing)
      rfl
  | within horder hstmts hrest hwithin =>
      obtain ⟨st, rest, rfl⟩ := List.exists_cons_of_ne_nil hrest
      rw [hwithin, List.map_cons, List.cons_append] at htodo
      rw [← (List.cons.inj htodo).1]
      rfl

/-! ### Operations and ticks beside it -/

/-- An operation takes the semaphore of an interface that is not cleaned up, or goes on, or releases it. -/
theorem setWorking (h : Leaving s) (ifc : Option (Iface w))
    (hlock : ifc.isSome = true → s.isWorking iface = true ∨ s.files iface = true ∧ s.cleaning ≠ some iface) :
    Leaving (s.setWorking iface ifc) := by
  -- an operation at work now was so before, or has begun on an interface that nobody cleans up
  have hbefore : ∀ j, (s.setWorking iface ifc).isWorking j = true →
      s.isWorking j = true ∨ s.files j = true ∧ s.cleaning ≠ some j := by
    intro j hj
    rw [isWorking_setWorking] at hj
    split at hj
    · rename_i heq
      exact heq ▸ hlock hj
    · exact Or.inl hj
  have hidle : ∀ j, s.isWorking j = false → s.cleaning = some j → (s.setWorking iface ifc).isWorking j = false := by
    intro j hj hcleaning
    refine Bool.eq_false_iff.mpr fun hworks => ?_
    rcases hbefore j hworks with hworks | ⟨_, hne⟩
    · exact absurd (hj.symm.trans hworks) Bool.false_ne_true
    · exact hne hcleaning
  refine { h with working := fun j hj => ?_, settled := fun j hf hj => h.settled j hf ?_, stage := ?_ }
  · exact (hbefore j hj).elim (h.working j) And.left
  · exact hj.elim Or.inl fun hworks => (hbefore j hworks).symm.imp_left And.right
  · cases h.stage with
    | between horder hcleanup => exact .between horder hcleanup
    | closing horder hclosing htail hnil hquiet =>
        refine .closing horder hclosing htail hnil (hidle _ hquiet ?_)
        rw [TimedModule.cleaning, hclosing]
    | within horder hstmts hrest hwithin htail howner hpriv hdestroyed hgone hquiet =>
        exact .within horder hstmts hrest hwithin htail howner hpriv hdestroyed hgone
          (hidle _ hquiet (cleaning_within hwithin))

/-- **An operation is over.** -/
theorem finish {op : Op w} {ret : Int} {done : Kernel w} (h : Leaving s) (hworking : s.isWorking iface = true)
    (hrun : Hwemu.exec HZ op (s.k.only iface) = .ok (ret, done)) : Leaving { s with k := s.k.put iface done } := by
  have hfiles := h.working iface hworking
  have hstore := h.settled iface hfiles (Or.inr hworking)
  have hne : ∀ j, s.isWorking j = false → j ≠ iface := by
    rintro j hj rfl
    exact absurd (hj.symm.trans hworking) Bool.false_ne_true
  have hsame : ∀ j, j ≠ iface → (s.k.put iface done).ifaces j = s.k.ifaces j := fun j hj => Function.update_of_ne hj ..
  have hput : ∀ {torn rest}, InOrder torn rest s.k → (∀ dev ∈ torn, dev.iface ≠ iface) →
      InOrder torn rest (s.k.put iface done) ∧ StoreInv ((s.k.put iface done).only iface) ∧
        s.k.heap.next ≤ done.heap.next ∧ ∀ a ∈ s.k.heap.freed, a ∈ done.heap.freed :=
    fun horder htorn => horder.put hstore htorn hrun
  -- what the operation leaves does not depend on where the unload is
  have hafter : StoreInv ((s.k.put iface done).only iface) ∧ s.k.heap.next ≤ done.heap.next := by
    cases h.stage with
    | between horder => exact ⟨(hput horder (by simp)).2.1, (hput horder (by simp)).2.2.1⟩
    | closing horder => exact ⟨(hput horder (by simp)).2.1, (hput horder (by simp)).2.2.1⟩
    | within horder _ _ _ _ _ _ _ _ hquiet =>
        have hout := hput horder fun dev hdev => Option.mem_some_iff.mp hdev ▸ hne _ hquiet
        exact ⟨hout.2.1, hout.2.2.1⟩
  refine { h with unlocked := fun j hj => ?_, settled := fun j hf hj => ?_, stage := ?_ }
  · by_cases hji : j = iface
    · exact hji ▸ h.files iface hfiles
    · refine h.unlocked j fun hnil => hj ?_
      change ((s.k.put iface done).ifaces j).devList = []
      rw [hsame j hji, hnil]
  · by_cases hji : j = iface
    · subst hji
      exact hafter.1
    · exact (h.settled j hf hj).only_congr (hsame j hji) hafter.2
  · cases h.stage with
    | between horder hcleanup => exact .between (hput horder (by simp)).1 hcleanup
    | closing horder hclosing htail hnil hquiet =>
        refine .closing (hput horder (by simp)).1 hclosing htail ?_ hquiet
        change ((s.k.put iface done).ifaces _).devList = []
        rw [hsame _ (hne _ hquiet), hnil]
    | within horder hstmts hrest hwithin htail howner hpriv hdestroyed hgone hquiet =>
        have hout := hput horder fun dev hdev => Option.mem_some_iff.mp hdev ▸ hne _ hquiet
        refine .within hout.1 hstmts hrest hwithin htail howner hpriv (fun hdone => hout.2.2.2 _ (hdestroyed hdone))
          (fun hdel d hd => hgone hdel d ?_) hquiet
        exact hsame _ (hne _ hquiet) ▸ hd

theorem inOrder (h : Leaving s) : ∃ torn rest, InOrder torn rest s.k := by
  cases h.stage with
  | between horder => exact ⟨none, 0, horder⟩
  | closing horder => exact ⟨none, 0, horder⟩
  | within horder => exact ⟨_, _, horder⟩

theorem tick (h : Leaving s) (jiff : BitVec w) : Leaving (s.tick jiff) := by
  obtain ⟨torn, rest, horder⟩ := h.inOrder
  have hifaces := TimedModule.tick_ifaces h.le_one horder.nodup jiff
  have haddrs : ∀ iface, ((s.tick jiff).k.ifaces iface).devList.map (·.addr) = (s.k.ifaces iface).devList.map (·.addr) := by
    intro iface
    rw [hifaces]
    dsimp only
    split
    · rw [Iface.ticked, List.map_map]
      rfl
    · rfl
  have hnil : ∀ iface, (s.k.ifaces iface).devList = [] → ((s.tick jiff).k.ifaces iface).devList = [] := by
    intro iface hnil
    have hsame := haddrs iface
    rw [hnil, List.map_nil, List.map_eq_nil_iff] at hsame
    exact hsame
  refine { h with unlocked := fun iface hne => h.unlocked iface fun hempty => hne (hnil iface hempty),
                  settled := fun iface hf hcond => (h.settled iface hf hcond).only_ticked hifaces rfl, stage := ?_ }
  cases h.stage with
  | between horder hcleanup => exact .between (horder.ticked hifaces rfl) hcleanup
  | closing horder hclosing htail hempty hquiet =>
      exact .closing (horder.ticked hifaces rfl) hclosing htail (hnil _ hempty) hquiet
  | within horder hstmts hrest hwithin htail howner hpriv hdestroyed hgone hquiet =>
      refine .within (horder.ticked hifaces rfl) hstmts hrest hwithin htail howner hpriv hdestroyed
        (fun hdel d' hd' => ?_) hquiet
      have hmem := List.mem_map_of_mem (f := fun d : Dev w => d.addr) hd'
      rw [haddrs] at hmem
      obtain ⟨d, hd, haddr⟩ := List.mem_map.mp hmem
      rw [← haddr]
      exact hgone hdel d hd

end Leaving

end Hwemu
