import MozartLineage.Sensors.StartUp

/-!
# The locks of a start-up

`open_sensors` leaves `queue_mutex` locked for the first query of the sensor
list, and every later query leaves it alone. So a start-up goes well exactly if
the proxy is opened once, first of all; the only other one is the empty one.
-/

namespace MozartLineage.Sensors.StartUp

variable {hal : SubHals} {s : Globals}

/-- A call at start-up. All modules can be opened, with the versions given. -/
inductive Call where
  | getSensorsList
  | openSensors (versions : ℕ → ℤ)

def Call.isQuery : Call → Bool
  | .getSensorsList => true
  | .openSensors _ => false

theorem Call.eq_getSensorsList {c : Call} (h : c.isQuery) : c = .getSensorsList := by
  cases c with
  | getSensorsList => rfl
  | openSensors versions => cases h

def call (hal : SubHals) (s : Globals) : Call → Except Fault Globals
  | .getSensorsList => (moduleGetSensorsList hal s).map Prod.fst
  | .openSensors versions =>
      (openSensors hal (fun i => some (versions i)) s).map Prod.fst

/-- No call faults, and `queue_mutex` is free as soon as the proxy has been
opened and the list queried. -/
def StartsUp (hal : SubHals) (calls : List Call) : Prop :=
  ∀ pre, pre <+: calls → ∃ s, pre.foldlM (call hal) .init = .ok s ∧
    ((∃ c ∈ pre, c.isQuery = false) → (∃ c ∈ pre, c.isQuery) → s.locked .queue = false)

/-- The state between the start-up and the calls of the framework. -/
structure Settled (s : Globals) : Prop where
  listed : s.globalSensorsList.isSome
  unlocked : ∀ m, s.locked m = false

theorem call_getSensorsList (hal : SubHals) (s : Globals) :
    call hal s .getSensorsList = lazyInitSensorsList hal s := by
  cases h : lazyInitSensorsList hal s <;>
    simp [call, moduleGetSensorsList, h, bind, Except.bind, pure, Except.pure, Except.map]

/-- A query that comes first unlocks what nobody has locked, if it gets as far. -/
theorem getSensorsList_init (hal : SubHals) :
    ∃ fault, call hal .init .getSensorsList = .error fault := by
  rw [call_getSensorsList, lazyInitSensorsList_eq rfl rfl rfl rfl]
  cases hlist : listModules hal Globals.init.subHwVersions
      (Globals.init.subHwModules.getD hal.modules) ⟨Globals.init.handles, []⟩ with
  | error fault => exact ⟨fault, rfl⟩
  | ok listing => exact ⟨.notLocked, by simp [unlock, Globals.init]⟩

/-- The state after the proxy has been opened. -/
structure Opened (hal : SubHals) (s : Globals) : Prop where
  modules : s.subHwModules = some hal.modules
  versions : ∃ versions : ℕ → ℤ,
    s.subHwVersions = some (openVersions (fun i => some (versions i)) hal.modules)
  list : s.globalSensorsList = none
  handles : s.handles = .empty
  queue : s.locked .queue = true
  others : s.locked .initModules = false ∧ s.locked .initSensors = false

theorem openSensors_init (hal : SubHals) (versions : ℕ → ℤ) :
    ∃ s, call hal .init (.openSensors versions) = .ok s ∧ Opened hal s := by
  rw [call, openSensors_eq rfl rfl]
  exact ⟨_, rfl, ⟨rfl, ⟨versions, rfl⟩, rfl, rfl, rfl, rfl, rfl⟩⟩

/-- The first query after the proxy has been opened. -/
theorem Opened.getSensorsList (h : Opened hal s) :
    ∃ s', call hal s .getSensorsList = .ok s' ∧ Settled s' := by
  obtain ⟨versions, hversions⟩ := h.versions
  have hknown : ∀ e ∈ entries hal hal.modules,
      (openVersions (fun i => some (versions i)) hal.modules e.module).isSome := fun e he =>
    openVersions_isSome.2 ⟨e.moduleIndex, (mem_entries.1 he).1, rfl⟩
  rw [call_getSensorsList, lazyInitSensorsList_eq h.others.2 h.others.1 h.list rfl,
    h.modules, hversions, h.handles, Option.getD_some, listModules_of_versions hknown]
  refine ⟨_, by simp only [unlock, h.queue, if_true]; rfl, rfl, fun m => ?_⟩
  cases m <;> simp [h.others]

theorem Settled.getSensorsList (h : Settled s) : call hal s .getSensorsList = .ok s := by
  rw [call_getSensorsList]
  exact lazyInitSensorsList_of_listed (h.unlocked _) h.listed

theorem Settled.queries (h : Settled s) {cs : List Call} (hcs : ∀ c ∈ cs, c.isQuery) :
    cs.foldlM (call hal) s = .ok s := by
  induction cs with
  | nil => rfl
  | cons c cs ih =>
      obtain rfl := Call.eq_getSensorsList (hcs c List.mem_cons_self)
      rw [List.foldlM_cons, h.getSensorsList]
      exact ih fun c hc => hcs c (List.mem_cons_of_mem _ hc)

/-- The first of the queries settles the start-up, and the others find it so. -/
theorem Opened.queries (h : Opened hal s) {c : Call} {cs : List Call}
    (hcs : ∀ d ∈ c :: cs, d.isQuery) :
    ∃ s', (c :: cs).foldlM (call hal) s = .ok s' ∧ Settled s' := by
  obtain rfl := Call.eq_getSensorsList (hcs c List.mem_cons_self)
  obtain ⟨s', hs', hsettled⟩ := h.getSensorsList
  refine ⟨s', ?_, hsettled⟩
  rw [List.foldlM_cons, hs']
  exact hsettled.queries fun c hc => hcs c (List.mem_cons_of_mem _ hc)

/-- Opening the proxy again blocks, or leaves `queue_mutex` locked for good. -/
theorem openSensors_again (h : Opened hal s) {cs : List Call}
    (hcs : ∀ c ∈ cs, c.isQuery) (versions : ℕ → ℤ) :
    ¬ ∃ s', (cs ++ [Call.openSensors versions]).foldlM (call hal) s = .ok s' ∧
      ((∃ c ∈ cs, c.isQuery) → s'.locked .queue = false) := by
  rintro ⟨s', hs', hfree⟩
  rw [List.foldlM_append] at hs'
  cases cs with
  | nil =>
      have hblocked : call hal s (.openSensors versions) = .error .blocked := by
        rw [call, openSensors_blocked h.others.1 h.queue]
        rfl
      simp [pure, Except.pure, bind, Except.bind, hblocked] at hs'
  | cons c cs =>
      obtain ⟨t, ht, hsettled⟩ := h.queries hcs
      have hopen : call hal t (.openSensors versions) = .ok s' := by
        cases hu : call hal t (.openSensors versions) with
        | error fault => simp [ht, hu, bind, Except.bind] at hs'
        | ok u => simpa [ht, hu, bind, Except.bind, pure, Except.pure] using hs'
      rw [call, openSensors_eq (hsettled.unlocked _) (hsettled.unlocked _)] at hopen
      cases hopen
      simpa using hfree ⟨c, List.mem_cons_self, hcs c List.mem_cons_self⟩

/-- The queries before the first call that opens the proxy. -/
theorem exists_first_open {calls : List Call} (h : ¬ ∀ c ∈ calls, c.isQuery) :
    ∃ cs versions tail, calls = cs ++ .openSensors versions :: tail ∧
      ∀ c ∈ cs, c.isQuery := by
  cases hfind : calls.find? fun c => !c.isQuery with
  | none => exact absurd (by simpa using hfind) h
  | some c =>
      obtain ⟨hc, cs, tail, hcalls, hcs⟩ := List.find?_eq_some_iff_append.1 hfind
      cases c with
      | getSensorsList => simp [Call.isQuery] at hc
      | openSensors versions => exact ⟨cs, versions, tail, hcalls, by simpa using hcs⟩

/-- A start-up that opens the proxy first can only query the list afterwards. -/
theorem StartsUp.queries {versions : ℕ → ℤ} {rest : List Call}
    (h : StartsUp hal (.openSensors versions :: rest)) : ∀ c ∈ rest, c.isQuery := by
  by_contra hrest
  obtain ⟨cs, versions', tail, rfl, hcs⟩ := exists_first_open hrest
  obtain ⟨t, ht, hopened⟩ := openSensors_init hal versions
  obtain ⟨s, hs, hfree⟩ :=
    h (.openSensors versions :: (cs ++ [.openSensors versions'])) (by simp)
  rw [List.foldlM_cons, ht] at hs
  refine openSensors_again hopened hcs versions' ⟨s, hs, fun ⟨c, hc, hq⟩ => ?_⟩
  exact hfree ⟨_, List.mem_cons_self, rfl⟩ ⟨c, by simp [hc], hq⟩

theorem startsUp_of_queries (versions : ℕ → ℤ) {rest : List Call}
    (hrest : ∀ c ∈ rest, c.isQuery) : StartsUp hal (.openSensors versions :: rest) := by
  intro pre hpre
  obtain ⟨t, ht, hopened⟩ := openSensors_init hal versions
  cases pre with
  | nil => exact ⟨.init, rfl, by simp⟩
  | cons c pre =>
      obtain ⟨rfl, htail⟩ := List.cons_prefix_cons.1 hpre
      have hqueries : ∀ c ∈ pre, c.isQuery := fun c hc => hrest c (htail.subset hc)
      rw [List.foldlM_cons, ht]
      cases pre with
      | nil => exact ⟨t, rfl, by simp [Call.isQuery]⟩
      | cons c pre =>
          obtain ⟨s, hs, hsettled⟩ := hopened.queries hqueries
          exact ⟨s, hs, fun _ _ => hsettled.unlocked _⟩

/-- A start-up goes well if and only if it is empty, or opens the proxy first and
only queries the list afterwards. -/
theorem startsUp_iff (hal : SubHals) (calls : List Call) :
    StartsUp hal calls ↔
      calls = [] ∨ ∃ versions rest, calls = .openSensors versions :: rest ∧
        ∀ c ∈ rest, c.isQuery := by
  constructor
  · intro h
    cases calls with
    | nil => exact Or.inl rfl
    | cons c rest =>
        cases c with
        | getSensorsList =>
            obtain ⟨fault, hfault⟩ := getSensorsList_init hal
            obtain ⟨s, hs, -⟩ := h [.getSensorsList] (by simp)
            simp [hfault, bind, Except.bind] at hs
        | openSensors versions => exact Or.inr ⟨versions, rest, rfl, h.queries⟩
  · rintro (rfl | ⟨versions, rest, rfl, hrest⟩)
    · rintro pre hpre
      obtain rfl := List.prefix_nil.1 hpre
      exact ⟨.init, rfl, by simp⟩
    · exact startsUp_of_queries versions hrest

/-- A list query as the first call faults, even without any module. -/
theorem not_startsUp_getSensorsList :
    ¬ ∀ (hal : SubHals) (calls : List Call), StartsUp hal calls := by
  intro hall
  obtain ⟨s, hs, -⟩ := hall ⟨[], fun _ => []⟩ [.getSensorsList] [.getSensorsList] (by simp)
  cases hs

end MozartLineage.Sensors.StartUp
