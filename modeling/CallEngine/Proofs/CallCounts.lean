import CallEngine.Proofs.Containment
import CallEngine.Proofs.Identities
/-! What the calls that there were say about promotion. A body is handed to the backend at the call
that makes it due or never, and the statistics of the engine agree with its methods. -/
namespace CallEngine
open Eval

/-- The call of a method at which its body is handed to the backend, if there is room. -/
def Config.dueCall (config : Config) : Option Nat :=
  match config.mode with
  | .off => none
  | .jit => some (max 1 config.threshold)
  | .force => some 1

theorem Config.dueCall_pos {config : Config} {due : Nat} (own : config.dueCall = some due) :
    0 < due := by
  unfold dueCall at own
  split at own <;> cases own
  · exact Nat.lt_of_lt_of_le Nat.one_pos (Nat.le_max_left _ _)
  · exact Nat.one_pos

theorem Config.shouldCompile_iff (config : Config) {calls : Nat} (positive : 0 < calls) :
    config.mode.shouldCompile calls config.threshold = true ↔
      ∃ due, config.dueCall = some due ∧ due ≤ calls := by
  unfold CompileMode.shouldCompile dueCall
  cases config.mode with
  | off => simp
  | jit =>
    simp only [decide_eq_true_eq, Option.some.injEq, exists_eq_left']
    omega
  | force => simp

/-- Fewer methods have been compiled than may be. -/
def Shared.hasRoom (shared : Shared) : Bool :=
  match shared.config.compileLimit with
  | some limit => shared.stats.compiled < limit
  | none => true

/-- The requests that were made for a method. -/
def Shared.records (shared : Shared) (id : MethodId) : List CompileRecord :=
  shared.stats.requests.toList.filter (·.method = id)

def Method.promotion? (m : Method) : Option Promotion :=
  match m.body with
  | .interpreted _ promotion => some promotion
  | _ => none

def Method.isPromoted (m : Method) : Bool := m.promotionState = some .promoted

theorem Promotion.state_eq_promoted {promotion : Promotion} :
    promotion.state = .promoted ↔ promotion.code.isSome := by
  unfold state
  split
  · simp [*]
  · split <;> simp [*]

namespace Method

variable {m : Method}

theorem promotion?_eq_some {promotion : Promotion} :
    m.promotion? = some promotion ↔ ∃ definition, m.body = .interpreted definition promotion := by
  unfold promotion?
  cases m.body <;> simp [eq_comm]

theorem promotion?_of_plain (plain : m.plain = m) {promotion : Promotion}
    (own : m.promotion? = some promotion) : promotion = {} := by
  obtain ⟨definition, body⟩ := promotion?_eq_some.1 own
  rw [← plain] at body
  exact plain_interpreted body

theorem promotionState_eq (m : Method) : m.promotionState = m.promotion?.map Promotion.state := by
  unfold promotionState promotion?
  cases m.body <;> rfl

theorem isPromoted_eq (m : Method) : m.isPromoted = m.promotion?.any (·.code.isSome) := by
  rw [isPromoted, promotionState_eq]
  cases m.promotion? <;> simp [Promotion.state_eq_promoted]

theorem isPromoted_iff :
    m.isPromoted = true ↔ ∃ promotion, m.promotion? = some promotion ∧ promotion.code.isSome := by
  rw [isPromoted_eq]
  cases m.promotion? <;> simp

theorem isPromoted_of_plain (plain : m.plain = m) : m.isPromoted = false := by
  rw [isPromoted_eq]
  cases own : m.promotion? with
  | none => rfl
  | some promotion =>
    rw [promotion?_of_plain plain own]
    rfl

end Method

/-- Nothing is counted and nothing promoted. -/
structure Shared.KeepsCounts (shared later : Shared) : Prop where
  config : later.config = shared.config
  backend : later.backend = shared.backend
  stats : later.stats = shared.stats
  library : shared.library.Gains later.library

namespace Shared.KeepsCounts

variable {a b c : Shared}

theorem of_eq (config : b.config = a.config) (backend : b.backend = a.backend)
    (stats : b.stats = a.stats) (methods : b.library.methods = a.library.methods) :
    a.KeepsCounts b :=
  ⟨config, backend, stats, .of_eq methods⟩

theorem refl (shared : Shared) : shared.KeepsCounts shared := of_eq rfl rfl rfl rfl

theorem trans (first : a.KeepsCounts b) (second : b.KeepsCounts c) : a.KeepsCounts c where
  config := second.config.trans first.config
  backend := second.backend.trans first.backend
  stats := second.stats.trans first.stats
  library := first.library.trans second.library

theorem update {α : Type} {f : State → α × State} (isLocal : Local f) (s : State) :
    s.shared.KeepsCounts (f s).2.shared where
  config := (congrArg Surroundings.config (isLocal.surroundings s) :)
  backend := (congrArg Surroundings.backend (isLocal.surroundings s) :)
  stats := (congrArg Surroundings.stats (isLocal.surroundings s) :)
  library := isLocal.methods s

theorem motion : LooseMotion fun s t => s.shared.KeepsCounts t.shared where
  refl s := .refl s.shared
  trans := .trans
  stack s _ := .refl s.shared
  scopes s _ := .refl s.shared
  enterLive s _ := .refl s.shared
  leaveLive s _ := .refl s.shared
  fire _ _ := .of_eq rfl rfl rfl rfl
  settle _ := .of_eq rfl rfl rfl rfl
  quiet quiet := update quiet.toLocal
  memory _ _ := .of_eq rfl rfl rfl rfl
  newClosure _ _ _ _ := .of_eq rfl rfl rfl rfl
  newMethod s owner visibility definition := update (.newMethod owner visibility definition) s

end Shared.KeepsCounts

/-- From the one state to the other, with the calls of interpreted methods on the way. -/
inductive Shared.Counts (shared : Shared) : List MethodId → Shared → Prop where
  | refl : Counts shared [] shared
  | keep {calls : List MethodId} {s t : Shared} :
    Counts shared calls s → s.KeepsCounts t → Counts shared calls t
  | call {calls : List MethodId} {s : State} (id : MethodId) (name : String) :
    Counts shared calls s.shared → (s.shared.library.method id).promotion?.isSome →
      Counts shared (calls ++ [id]) (s.promote id name).2.shared

theorem Shared.Counts.trans {a b c : Shared} {first second : List MethodId}
    (left : a.Counts first b) (right : b.Counts second c) : a.Counts (first ++ second) c := by
  induction right with
  | refl => simpa using left
  | keep _ keeps ih => exact ih.keep keeps
  | call id name _ interpreted ih =>
    rw [← List.append_assoc]
    exact ih.call id name interpreted

/-- What one call does to the promotion of its method and to the statistics. -/
inductive Promotion.Advances (shared : Shared) (id : MethodId) (promotion : Promotion) :
    Promotion → CompileStats → Prop where
  | promoted : promotion.code.isSome → Advances shared id promotion promotion shared.stats
  | counted : promotion.code = none →
    promotion.counted.isDue shared.config shared.stats = false →
      Advances shared id promotion promotion.counted shared.stats
  | compiled {code : Code} {record : CompileRecord} : promotion.code = none →
    promotion.counted.isDue shared.config shared.stats → record.method = id →
    record.failure = none →
      Advances shared id promotion { promotion.counted with code := some code }
        { shared.stats with
          compiled := shared.stats.compiled + 1, requests := shared.stats.requests.push record }
  | failed {record : CompileRecord} : promotion.code = none →
    promotion.counted.isDue shared.config shared.stats → record.method = id →
    record.failure ≠ none →
      Advances shared id promotion { promotion.counted with disabled := true }
        { shared.stats with
          failed := shared.stats.failed + 1, requests := shared.stats.requests.push record }

theorem Promotion.advances (promotion : Promotion) (shared : Shared) (id : MethodId)
    (request : CompileRequest) :
    let later := promotion.advance shared.config shared.backend id request shared.stats
    promotion.Advances shared id later.1 later.2 := by
  intro later
  simp only [later, advance]
  cases ready : promotion.code with
  | some code => exact .promoted (by rw [ready]; rfl)
  | none =>
    simp only [Option.isSome_none, Bool.false_eq_true, if_false]
    split
    · next due =>
      cases shared.backend shared.stats.requests.size request with
      | compiled code => exact .compiled ready due rfl rfl
      | refused error => exact .failed ready due rfl nofun
      | crashed => exact .failed ready due rfl nofun
    · next notDue => exact .counted ready (by simpa using notDue)

/-- The engine with the promotion of one method and the statistics changed. -/
def Shared.promoting (shared : Shared) (id : MethodId) (definition : Definition)
    (promotion : Promotion) (stats : CompileStats) : Shared :=
  { shared with
    stats
    library := shared.library.setMethod id
      { shared.library.method id with body := .interpreted definition promotion } }

theorem State.promote_cases {s : State} {id : MethodId} {definition : Definition}
    {promotion : Promotion}
    (own : (s.shared.library.method id).body = .interpreted definition promotion) (name : String) :
    ∃ later stats, promotion.Advances s.shared id later stats ∧
      (s.promote id name).2.shared = s.shared.promoting id definition later stats := by
  let request : CompileRequest :=
    { name, arity := definition.params.arity, body := definition.body,
      scope := s.shared.memory.static definition.scope }
  refine ⟨_, _, promotion.advances s.shared id request, ?_⟩
  unfold promote
  simp only [own]
  rfl

theorem State.promote_other {s : State} {id : MethodId}
    (other : (s.shared.library.method id).promotion? = none) (name : String) :
    (s.promote id name).2 = s := by
  unfold promote
  unfold Method.promotion? at other
  dsimp only
  split
  · next body =>
    rw [body] at other
    cases other
  · rfl

theorem Library.promotion?_of_missing {library : Library} {id : MethodId}
    (missing : library.methods.size ≤ id) : (library.method id).promotion? = none := by
  have absent : library.methods[id]? = none := Array.getElem?_eq_none missing
  simp only [Library.method, Array.getD_eq_getD_getElem?, absent]
  rfl

theorem Library.lt_of_promotion? {library : Library} {id : MethodId} {promotion : Promotion}
    (own : (library.method id).promotion? = some promotion) : id < library.methods.size := by
  refine Nat.not_le.1 fun missing => ?_
  rw [promotion?_of_missing missing] at own
  cases own

section promoting

variable {shared : Shared} {id : MethodId} {definition : Definition} {promotion : Promotion}
  {stats : CompileStats}

theorem Shared.method_promoting (inside : id < shared.library.methods.size) (other : MethodId) :
    (shared.promoting id definition promotion stats).library.method other =
      if other = id then
        { shared.library.method id with body := .interpreted definition promotion }
      else shared.library.method other := by
  simp only [promoting, Library.method, Library.setMethod, Array.getD_eq_getD_getElem?,
    Array.getElem?_setIfInBounds]
  by_cases same : other = id
  · subst same
    simp [inside]
  · simp [same, Ne.symm same]

theorem Shared.size_promoting : (shared.promoting id definition promotion stats).library.methods.size =
    shared.library.methods.size := by
  simp [promoting, Library.setMethod]

end promoting

theorem State.promote_ne {s : State} {id other : MethodId} (differs : other ≠ id) (name : String) :
    (s.promote id name).2.shared.library.method other = s.shared.library.method other := by
  cases own : (s.shared.library.method id).promotion? with
  | none => rw [promote_other own]
  | some promotion =>
    obtain ⟨definition, body⟩ := Method.promotion?_eq_some.1 own
    obtain ⟨next, stats, -, result⟩ := promote_cases body name
    rw [result, Shared.method_promoting (Library.lt_of_promotion? own), if_neg differs]

/-- A method after so many calls, with the requests that were made for it. -/
inductive Shared.Stage (shared : Shared) (calls : Nat) :
    Promotion → List CompileRecord → Prop where
  /-- The body is not due yet, or there was no room when it was. -/
  | waiting : (∀ due, shared.config.dueCall = some due → due ≤ calls → shared.hasRoom = false) →
      Stage shared calls { calls } []
  | promoted {due : Nat} {code : Code} {record : CompileRecord} :
    shared.config.dueCall = some due → due ≤ calls → record.failure = none →
      Stage shared calls { calls := due, code := some code } [record]
  | failed {due : Nat} {record : CompileRecord} :
    shared.config.dueCall = some due → due ≤ calls → record.failure ≠ none →
      Stage shared calls { calls, disabled := true } [record]

/-- The engine as the calls of its methods account for it. -/
structure Shared.Accounts (shared : Shared) (calls : List MethodId) : Prop where
  stage : ∀ id promotion, (shared.library.method id).promotion? = some promotion →
    shared.Stage (calls.count id) promotion (shared.records id)
  uncalled : ∀ id, (shared.library.method id).promotion? = none →
    id ∉ calls ∧ shared.records id = []
  compiled : shared.stats.compiled = shared.library.methods.countP Method.isPromoted
  answered : shared.stats.compiled + shared.stats.failed = shared.stats.requests.size
  room : ∀ limit, shared.config.compileLimit = some limit → shared.stats.compiled ≤ limit

namespace Shared

variable {shared later : Shared} {calls : List MethodId}

theorem Stage.mono {count : Nat} {promotion : Promotion} {records : List CompileRecord}
    (stage : shared.Stage count promotion records) (config : later.config = shared.config)
    (room : shared.hasRoom = false → later.hasRoom = false) :
    later.Stage count promotion records := by
  cases stage with
  | waiting blocked =>
    exact .waiting fun due own reached => room (blocked due (config ▸ own) reached)
  | promoted own reached succeeded => exact .promoted (config.symm ▸ own) reached succeeded
  | failed own reached failed => exact .failed (config.symm ▸ own) reached failed

/-- The first call is not due before it is made. -/
theorem Stage.fresh : shared.Stage 0 {} [] :=
  .waiting fun _ own reached => absurd (Config.dueCall_pos own) (Nat.not_lt.2 reached)

theorem hasRoom_of_compiled (config : later.config = shared.config)
    (compiled : shared.stats.compiled ≤ later.stats.compiled) (full : shared.hasRoom = false) :
    later.hasRoom = false := by
  unfold hasRoom at full ⊢
  rw [config]
  split at full
  · rw [decide_eq_false_iff_not] at full ⊢
    omega
  · cases full

theorem Accounts.keep (accounts : shared.Accounts calls) (keeps : shared.KeepsCounts later) :
    later.Accounts calls := by
  have records (id : MethodId) : later.records id = shared.records id := by
    simp only [Shared.records, keeps.stats]
  have room : later.hasRoom = shared.hasRoom := by
    simp only [hasRoom, keeps.config, keeps.stats]
  have old {id : MethodId} (inside : id < shared.library.methods.size) :=
    keeps.library.old inside
  constructor
  · intro id promotion own
    by_cases inside : id < shared.library.methods.size
    · rw [old inside] at own
      rw [records]
      exact (accounts.stage id promotion own).mono keeps.config (room.trans ·)
    · have missing := Nat.not_lt.1 inside
      obtain ⟨notCalled, none⟩ := accounts.uncalled id (Library.promotion?_of_missing missing)
      have plain := keeps.library.new missing
      rw [Method.promotion?_of_plain plain own, records, none, List.count_eq_zero.2 notCalled]
      exact .fresh
  · intro id own
    rw [records]
    by_cases inside : id < shared.library.methods.size
    · rw [old inside] at own
      exact accounts.uncalled id own
    · exact accounts.uncalled id (Library.promotion?_of_missing (Nat.not_lt.1 inside))
  · obtain ⟨made, methods, plain⟩ := keeps.library
    have none : made.countP Method.isPromoted = 0 := by
      rw [Array.countP_eq_zero]
      exact fun m member => by simp [Method.isPromoted_of_plain (plain m member)]
    rw [keeps.stats, methods, Array.countP_append, none]
    exact accounts.compiled
  · rw [keeps.stats]
    exact accounts.answered
  · rw [keeps.stats, keeps.config]
    exact accounts.room

/-- A body that waits is due at the call that makes it so, if there is room then. -/
theorem isDue_iff {count : Nat}
    (blocked : ∀ due, shared.config.dueCall = some due → due ≤ count → shared.hasRoom = false) :
    Promotion.isDue { calls := count + 1 } shared.config shared.stats = true ↔
      shared.config.dueCall = some (count + 1) ∧ shared.hasRoom = true := by
  have split : Promotion.isDue { calls := count + 1 } shared.config shared.stats =
      (shared.config.mode.shouldCompile (count + 1) shared.config.threshold && shared.hasRoom) := by
    rfl
  rw [split, Bool.and_eq_true, shared.config.shouldCompile_iff (Nat.succ_pos count)]
  constructor
  · rintro ⟨⟨due, own, reached⟩, room⟩
    have notYet : ¬due ≤ count := fun before => by simp [blocked due own before] at room
    obtain rfl : due = count + 1 := by omega
    exact ⟨own, room⟩
  · rintro ⟨own, room⟩
    exact ⟨⟨count + 1, own, Nat.le_refl _⟩, room⟩

/-- The method, if its next call is the one that hands its body to the backend. -/
def handed (shared : Shared) (id : MethodId) (count : Nat) : List MethodId :=
  if shared.config.dueCall = some (count + 1) ∧ shared.hasRoom = true then [id] else []

theorem handed_of_due {record : CompileRecord} {id : MethodId} {count : Nat} (own : record.method = id)
    (due : shared.config.dueCall = some (count + 1) ∧ shared.hasRoom = true) :
    [record].map (·.method) = shared.handed id count :=
  (congrArg (fun own => [own]) own).trans (if_pos due).symm

/-- What was due already is not handed over again. -/
theorem handed_of_reached {due count : Nat} (own : shared.config.dueCall = some due)
    (reached : due ≤ count) (id : MethodId) : shared.handed id count = [] := by
  refine if_neg fun ⟨next, _⟩ => ?_
  rw [own, Option.some.injEq] at next
  omega

/-- The next call of a method. -/
theorem Stage.advance {id : MethodId} {count : Nat} {promotion next : Promotion}
    {records : List CompileRecord} {stats : CompileStats} (bound : count < largestCallCount)
    (stage : shared.Stage count promotion records)
    (advances : promotion.Advances shared id next stats) :
    ∃ made : List CompileRecord,
      stats.requests.toList = shared.stats.requests.toList ++ made ∧
      made.map (·.method) = shared.handed id count ∧
      ∀ later : Shared, later.config = shared.config → later.stats = stats →
        later.Stage (count + 1) next (records ++ made) := by
  have counted : min (count + 1) largestCallCount = count + 1 :=
    Nat.min_eq_left (Nat.succ_le_of_lt bound)
  cases stage with
  | waiting blocked =>
    have isDue := isDue_iff blocked
    cases advances with
    | promoted ready => cases ready
    | counted _ notDue =>
      simp only [Promotion.counted, counted] at notDue ⊢
      rw [Bool.eq_false_iff, Ne, isDue] at notDue
      refine ⟨[], by simp, (if_neg notDue).symm, fun later config stats => ?_⟩
      have same : later.hasRoom = shared.hasRoom := by simp only [hasRoom, config, stats]
      refine .waiting fun due own reached => same.trans ?_
      rw [config] at own
      by_cases before : due ≤ count
      · exact blocked due own before
      · obtain rfl : due = count + 1 := by omega
        exact Bool.eq_false_iff.2 fun room => notDue ⟨own, room⟩
    | @compiled code record _ due own succeeded =>
      simp only [Promotion.counted, counted] at due ⊢
      have due := isDue.1 due
      refine ⟨[record], by simp, handed_of_due own due, fun later config _ => ?_⟩
      exact .promoted (config ▸ due.1) (Nat.le_refl _) succeeded
    | @failed record _ due own failed =>
      simp only [Promotion.counted, counted] at due ⊢
      have due := isDue.1 due
      refine ⟨[record], by simp, handed_of_due own due, fun later config _ => ?_⟩
      exact .failed (config ▸ due.1) (Nat.le_refl _) failed
  | promoted own reached succeeded =>
    have made := (handed_of_reached own reached id).symm
    cases advances with
    | promoted =>
      refine ⟨[], by simp, made, fun later config _ => ?_⟩
      exact .promoted (config ▸ own) (Nat.le_succ_of_le reached) succeeded
    | counted none | compiled none | failed none => cases none
  | failed own reached failed =>
    have made := (handed_of_reached own reached id).symm
    cases advances with
    | promoted ready => cases ready
    | counted =>
      refine ⟨[], by simp, made, fun later config _ => ?_⟩
      simp only [Promotion.counted, counted]
      exact .failed (config ▸ own) (Nat.le_succ_of_le reached) failed
    | compiled _ due | failed _ due => simp [Promotion.isDue, Promotion.counted] at due

end Shared

namespace Promotion.Advances

variable {shared : Shared} {id : MethodId} {promotion next : Promotion} {stats : CompileStats}

/-- The statistics count a method when its code is there. -/
theorem compiled_eq (advances : promotion.Advances shared id next stats) :
    stats.compiled + promotion.code.isSome.toNat =
      shared.stats.compiled + next.code.isSome.toNat := by
  cases advances with
  | promoted => rfl
  | counted none | compiled none | failed none => simp [none, Promotion.counted]

theorem answered (advances : promotion.Advances shared id next stats)
    (before : shared.stats.compiled + shared.stats.failed = shared.stats.requests.size) :
    stats.compiled + stats.failed = stats.requests.size := by
  cases advances with
  | promoted | counted => exact before
  | compiled | failed =>
    simp only [Array.size_push]
    omega

theorem room (advances : promotion.Advances shared id next stats) {limit : Nat}
    (own : shared.config.compileLimit = some limit) (before : shared.stats.compiled ≤ limit) :
    stats.compiled ≤ limit := by
  cases advances with
  | promoted | counted | failed => exact before
  | compiled _ due =>
    simp only [Promotion.isDue, own, Bool.and_eq_true, decide_eq_true_eq] at due
    exact due.2

theorem requests (advances : promotion.Advances shared id next stats) :
    shared.stats.requests.toList <+: stats.requests.toList := by
  cases advances with
  | promoted | counted => exact List.prefix_refl _
  | compiled | failed =>
    rw [Array.toList_push]
    exact List.prefix_append _ _

end Promotion.Advances

namespace Shared

variable {shared later : Shared} {calls : List MethodId}

theorem compiled_promoting {id : MethodId} {definition : Definition}
    {promotion next : Promotion} {stats : CompileStats}
    (own : (shared.library.method id).body = .interpreted definition promotion)
    (advances : promotion.Advances shared id next stats)
    (before : shared.stats.compiled = shared.library.methods.countP Method.isPromoted) :
    stats.compiled =
      (shared.promoting id definition next stats).library.methods.countP Method.isPromoted := by
  have inside : id < shared.library.methods.size :=
    Library.lt_of_promotion? (Method.promotion?_eq_some.2 ⟨definition, own⟩)
  have here : shared.library.methods[id] = shared.library.method id := by
    simp [Library.method, inside]
  have was : shared.library.methods[id].isPromoted = promotion.code.isSome := by
    rw [here, Method.isPromoted_eq]
    simp [Method.promotion?, own]
  have counted : promotion.code.isSome.toNat ≤ shared.library.methods.countP Method.isPromoted := by
    cases ready : promotion.code.isSome with
    | false => exact Nat.zero_le _
    | true => exact Array.countP_pos_iff.2 ⟨_, Array.getElem_mem inside, was.trans ready⟩
  have change := advances.compiled_eq
  have new : Method.isPromoted { shared.library.method id with
      body := .interpreted definition next } = next.code.isSome := Method.isPromoted_eq _
  simp only [promoting, Library.setMethod]
  rw [Array.setIfInBounds_def, dif_pos inside, Array.countP_set, was, new]
  cases ready : promotion.code.isSome <;> cases now : next.code.isSome <;>
    simp only [ready, now, Bool.toNat_true, Bool.toNat_false, Bool.false_eq_true, if_true,
      if_false] at change counted ⊢ <;> omega

theorem records_append {made : List CompileRecord} {id : MethodId}
    (requests : later.stats.requests.toList = shared.stats.requests.toList ++ made)
    (own : ∀ record ∈ made, record.method = id) (other : MethodId) :
    later.records other = shared.records other ++ if other = id then made else [] := by
  simp only [records, requests, List.filter_append]
  congr 1
  split
  · next same =>
    rw [List.filter_eq_self]
    exact fun record member => by simp [own record member, same]
  · next differs =>
    rw [List.filter_eq_nil_iff]
    exact fun record member => by simp [own record member, Ne.symm differs]

theorem mem_handed {id other : MethodId} {count : Nat} (member : other ∈ shared.handed id count) :
    other = id := by
  unfold handed at member
  split at member
  · exact List.mem_singleton.1 member
  · cases member

/-- A call is accounted for, and it hands over no other body than that of its method. -/
theorem Accounts.call {s : State} {id : MethodId} {promotion : Promotion}
    (accounts : s.shared.Accounts calls)
    (own : (s.shared.library.method id).promotion? = some promotion)
    (bound : calls.count id < largestCallCount) (name : String) :
    (s.promote id name).2.shared.Accounts (calls ++ [id]) ∧
      (s.promote id name).2.shared.stats.requests.toList.map (·.method) =
        s.shared.stats.requests.toList.map (·.method) ++ s.shared.handed id (calls.count id) := by
  obtain ⟨definition, body⟩ := Method.promotion?_eq_some.1 own
  obtain ⟨next, stats, advances, result⟩ := State.promote_cases body name
  have inside := Library.lt_of_promotion? own
  obtain ⟨made, requests, methods, stage⟩ := (accounts.stage id promotion own).advance bound advances
  have mine (record : CompileRecord) (member : record ∈ made) : record.method = id := by
    have handed := List.mem_map_of_mem (f := (·.method)) member
    rw [methods] at handed
    exact mem_handed handed
  let later := s.shared.promoting id definition next stats
  have records (other : MethodId) :
      later.records other = s.shared.records other ++ if other = id then made else [] :=
    records_append requests mine other
  have method (other : MethodId) : later.library.method other =
      if other = id then { s.shared.library.method id with body := .interpreted definition next }
      else s.shared.library.method other := method_promoting inside other
  have compiled : s.shared.stats.compiled ≤ stats.compiled := by
    cases advances <;> simp
  have room : s.shared.hasRoom = false → later.hasRoom = false := hasRoom_of_compiled rfl compiled
  rw [result]
  refine ⟨⟨fun other found others => ?_, fun other none => ?_, ?_, ?_, ?_⟩, ?_⟩
  · rw [method] at others
    rw [records]
    by_cases same : other = id
    · subst same
      rw [if_pos rfl] at others ⊢
      obtain rfl : next = found := by simpa [Method.promotion?] using others
      simpa using stage later rfl rfl
    · rw [if_neg same] at others ⊢
      have kept : later.Stage _ found _ := (accounts.stage other found others).mono rfl room
      simpa [List.count_append, List.count_singleton, Ne.symm same] using kept
  · rw [method] at none
    rw [records]
    by_cases same : other = id
    · subst same
      simp [Method.promotion?] at none
    · rw [if_neg same] at none ⊢
      obtain ⟨notCalled, noRecords⟩ := accounts.uncalled other none
      exact ⟨by simp [notCalled, same], by simp [noRecords]⟩
  · exact compiled_promoting body advances accounts.compiled
  · exact advances.answered accounts.answered
  · exact fun limit own => advances.room own (accounts.room limit own)
  · change stats.requests.toList.map _ = _
    rw [requests, List.map_append, methods]

/-- Where the calls start to be counted. -/
theorem Counts.accounts {start : Shared} (fresh : start.Accounts []) (counts : start.Counts calls shared)
    (bound : ∀ id, calls.count id < largestCallCount) : shared.Accounts calls := by
  induction counts with
  | refl => exact fresh
  | keep _ keeps ih => exact (ih bound).keep keeps
  | @call calls s id name _ interpreted ih =>
    have before (other : MethodId) : calls.count other ≤ (calls ++ [id]).count other := by
      simp [List.count_append]
    have here : calls.count id < (calls ++ [id]).count id := by simp
    obtain ⟨promotion, own⟩ := Option.isSome_iff_exists.1 interpreted
    have accounts := ih fun other => Nat.lt_of_le_of_lt (before other) (bound other)
    exact (accounts.call own (Nat.lt_trans here (bound id)) name).1

/-- Promotion is final. -/
theorem Counts.promoted {id : MethodId} (counts : shared.Counts calls later)
    (promoted : (shared.library.method id).isPromoted) :
    later.library.method id = shared.library.method id := by
  obtain ⟨promotion, own, ready⟩ := Method.isPromoted_iff.1 promoted
  induction counts with
  | refl => rfl
  | keep _ keeps ih =>
    have inside := Library.lt_of_promotion? ((congrArg _ ih).trans own)
    exact (keeps.library.old inside).trans ih
  | @call calls s called name _ interpreted ih =>
    refine Eq.trans ?_ ih
    by_cases same : id = called
    · subst same
      obtain ⟨definition, body⟩ := Method.promotion?_eq_some.1 ((congrArg _ ih).trans own)
      obtain ⟨next, stats, advances, result⟩ := State.promote_cases body name
      have kept : next = promotion := by
        cases advances with
        | promoted => rfl
        | counted none | compiled none | failed none =>
          rw [none] at ready
          cases ready
      rw [result, method_promoting (Library.lt_of_promotion? ((congrArg _ ih).trans own)), if_pos rfl,
        kept, ← body]
    · exact State.promote_ne same name

/-- No request is forgotten. -/
theorem Counts.requests (counts : shared.Counts calls later) :
    shared.stats.requests.toList <+: later.stats.requests.toList := by
  induction counts with
  | refl => exact List.prefix_refl _
  | keep _ keeps ih => exact keeps.stats ▸ ih
  | @call calls s called name _ interpreted ih =>
    obtain ⟨promotion, own⟩ := Option.isSome_iff_exists.1 interpreted
    obtain ⟨definition, body⟩ := Method.promotion?_eq_some.1 own
    obtain ⟨next, stats, advances, result⟩ := State.promote_cases body name
    rw [result]
    exact ih.trans advances.requests

/-- Methods that are not called stay as they are. -/
theorem Counts.uncalled {id : MethodId} (counts : shared.Counts calls later)
    (inside : id < shared.library.methods.size) (notCalled : id ∉ calls) :
    id < later.library.methods.size ∧ later.library.method id = shared.library.method id := by
  induction counts with
  | refl => exact ⟨inside, rfl⟩
  | keep _ keeps ih =>
    obtain ⟨inside, same⟩ := ih notCalled
    obtain ⟨made, methods, -⟩ := keeps.library
    refine ⟨?_, (keeps.library.old inside).trans same⟩
    rw [methods, Array.size_append]
    exact Nat.lt_add_right _ inside
  | @call calls s called name _ interpreted ih =>
    simp only [List.mem_append, List.mem_singleton, not_or] at notCalled
    obtain ⟨inside, same⟩ := ih notCalled.1
    obtain ⟨promotion, own⟩ := Option.isSome_iff_exists.1 interpreted
    obtain ⟨definition, body⟩ := Method.promotion?_eq_some.1 own
    obtain ⟨next, stats, -, result⟩ := State.promote_cases body name
    refine ⟨?_, (State.promote_ne notCalled.2 name).trans same⟩
    rw [result, size_promoting]
    exact inside

theorem Stage.state {count : Nat} {promotion : Promotion} {records : List CompileRecord}
    (stage : shared.Stage count promotion records) : promotion.state =
      if ∃ record ∈ records, record.failure = none then .promoted
      else if count = 0 then .fresh else .warm count := by
  cases stage with
  | waiting => simp [Promotion.state]
  | promoted _ _ succeeded => simp [Promotion.state, succeeded]
  | failed _ _ failed => simp [Promotion.state, failed]

theorem Stage.once {count : Nat} {promotion : Promotion} {records : List CompileRecord}
    (stage : shared.Stage count promotion records) : records.length ≤ 1 := by
  cases stage <;> simp

end Shared

/-- How an evaluation moves the engine: with some calls on the way. -/
abbrev Counted : EvalProperty := Moves fun s t => ∃ calls, s.shared.Counts calls t.shared

namespace Counted

theorem of_keeps {shared later : Shared} (keeps : shared.KeepsCounts later) :
    ∃ calls, shared.Counts calls later :=
  ⟨[], .keep .refl keeps⟩

theorem motion : FreeMotion fun s t => ∃ calls, s.shared.Counts calls t.shared where
  refl _ := ⟨[], .refl⟩
  trans := by
    rintro s t u ⟨first, counts⟩ ⟨second, counts'⟩
    exact ⟨first ++ second, counts.trans counts'⟩
  stack _ _ := ⟨[], .refl⟩
  scopes _ _ := ⟨[], .refl⟩
  enterLive _ _ := ⟨[], .refl⟩
  leaveLive _ _ := ⟨[], .refl⟩
  fire _ _ := of_keeps (.of_eq rfl rfl rfl rfl)
  settle _ := of_keeps (.of_eq rfl rfl rfl rfl)
  promote s id name := by
    cases own : (s.shared.library.method id).promotion? with
    | none =>
      rw [s.promote_other own]
      exact ⟨[], .refl⟩
    | some promotion => exact ⟨[id], .call id name .refl (by simp [own])⟩
  quiet quiet s := of_keeps (.update quiet.toLocal s)
  memory _ _ := of_keeps (.of_eq rfl rfl rfl rfl)
  newClosure _ _ _ _ := of_keeps (.of_eq rfl rfl rfl rfl)
  newMethod s owner visibility definition :=
    of_keeps (.update (.newMethod owner visibility definition) s)

theorem sessional : Sessional Counted :=
  motion.sessional (fun _ _ => of_keeps (.of_eq rfl rfl rfl rfl)) fun isLocal s =>
    of_keeps (.update isLocal s)

theorem perform (fuel : Nat) (names : Session.Names) (command : Session.Command) :
    Counted (Session.perform fuel names command) :=
  sessional.performAny motion.chains.read fuel names (sessional.needs command)

end Counted

theorem Session.after_counts (fuel : Nat) (session : Session) (steps : List Step) :
    ∃ calls, session.shared.Counts calls (session.after fuel steps).shared :=
  after_shared (R := fun a b => ∃ calls, a.Counts calls b) (fun _ => ⟨[], .refl⟩)
    (by
      rintro a b c ⟨first, counts⟩ ⟨second, counts'⟩
      exact ⟨first ++ second, counts.trans counts'⟩)
    (fun _ _ => Counted.of_keeps (.of_eq rfl rfl rfl rfl)) fuel session
    fun step _ names => Counted.perform fuel names step.command

/-- At first there are only built-in methods, and nothing was handed over. -/
theorem Session.start_accounts (config : Config) (backend : Backend) (tellsCompiles : Bool)
    (hooks : List Hook) (contexts firstTarget : Nat) :
    (start config backend tellsCompiles hooks contexts firstTarget).shared.Accounts [] := by
  let fresh := Shared.start config backend hooks firstTarget
  have stats : fresh.stats = {} := rfl
  have builtin (id : MethodId) : (fresh.library.method id).promotion? = none := by
    have noBody := start_builtin config backend hooks firstTarget id
    unfold Method.promotion?
    split
    · next definition promotion body =>
      exact absurd (fun builtin same => by cases body.symm.trans same) noBody
    · rfl
  have core : fresh.Accounts [] := by
    refine ⟨fun id promotion own => ?_, fun id _ => ?_, ?_, ?_, ?_⟩
    · rw [builtin] at own
      cases own
    · exact ⟨List.not_mem_nil, by simp [Shared.records, stats]⟩
    · rw [stats]
      refine (Array.countP_eq_zero.2 fun m member => ?_).symm
      obtain ⟨id, inside, rfl⟩ := Array.getElem_of_mem member
      have none := builtin id
      simp only [Library.method, Array.getD_eq_getD_getElem?, Array.getElem?_eq_getElem inside,
        Option.getD_some] at none
      simp [Method.isPromoted_eq, none]
    · rw [stats]
      rfl
    · exact fun limit _ => stats ▸ Nat.zero_le limit
  exact addContexts_keeps (P := fun session => session.shared.Accounts [])
    (fun _ accounts => accounts.keep (.of_eq rfl rfl rfl rfl)) core contexts

/-- Where a call is the only thing that counts, it counts once, before anything is asked. -/
theorem Framing.invoked {P : EvalProperty} {resumes : Prop} (h : Framing P resumes)
    {ask : Responder} (asks : ∀ request, P (ask request)) (bound : Nat)
    (enough : bound = 0 → resumes) (id : MethodId) (call : Call) (s : State) :
    ∃ body : Eval Value, P body ∧
      Eval.invoke bound ask id call s = body (s.promote id call.name).2 := by
  let m := s.shared.library.method id
  have found : Eval.invoke bound ask id call s = _ := bind_ok (x := Eval.method id) rfl
  have uncounted (other : m.promotion? = none) : (s.promote id call.name).2 = s :=
    s.promote_other other call.name
  unfold Method.promotion? at uncounted
  simp only [m] at uncounted
  cases own : (s.shared.library.method id).body with
  | interpreted definition promotion =>
    obtain ⟨code, ready⟩ := Eval.codeToRun_eq id call.name s
    simp only [own] at found
    rw [bind_ok ready] at found
    cases code with
    | some code =>
      exact ⟨_, h.runBody asks bound enough m _ call (h.exec asks bound enough code), found⟩
    | none =>
      exact ⟨_, h.runBody asks bound enough m _ call (h.eval asks bound enough _), found⟩
  | compiled scope params code =>
    simp only [own] at found uncounted
    rw [uncounted trivial]
    exact ⟨_, h.runBody asks bound enough m params call (h.exec asks bound enough code), found⟩
  | builtin builtin =>
    simp only [own] at found uncounted
    rw [uncounted trivial]
    refine ⟨_, h.entering m.config (m.invocation call)
      (h.steering.builtin asks bound enough builtin call) ?_, found⟩
    simp [Method.invocation, m, own]

/-- What is seen of promotion after these calls. -/
structure Shared.Tallies (shared : Shared) (calls : List MethodId) : Prop where
  state : ∀ id, (shared.library.method id).promotion?.isSome →
    (shared.library.method id).promotionState = some
      (if ∃ record ∈ shared.records id, record.failure = none then .promoted
        else if calls.count id = 0 then .fresh else .warm (calls.count id))
  once : ∀ id, (shared.records id).length ≤ 1
  next : ∀ (s : State) id name, s.shared = shared →
    (shared.library.method id).promotion?.isSome →
      (s.promote id name).2.shared.stats.requests.toList.map (·.method) =
        shared.stats.requests.toList.map (·.method) ++ shared.handed id (calls.count id)
  compiled : shared.stats.compiled = shared.library.methods.countP Method.isPromoted
  answered : shared.stats.compiled + shared.stats.failed = shared.stats.requests.size
  room : ∀ limit, shared.config.compileLimit = some limit → shared.stats.compiled ≤ limit

theorem Shared.Accounts.tallies {shared : Shared} {calls : List MethodId}
    (accounts : shared.Accounts calls) (bound : ∀ id, calls.count id < largestCallCount) :
    shared.Tallies calls where
  state id interpreted := by
    obtain ⟨promotion, own⟩ := Option.isSome_iff_exists.1 interpreted
    rw [Method.promotionState_eq, own, Option.map_some, (accounts.stage id promotion own).state]
  once id := by
    cases own : (shared.library.method id).promotion? with
    | none => simp [(accounts.uncalled id own).2]
    | some promotion => exact (accounts.stage id promotion own).once
  next := by
    rintro s id name rfl interpreted
    obtain ⟨promotion, own⟩ := Option.isSome_iff_exists.1 interpreted
    exact (accounts.call own (bound id) name).2
  compiled := accounts.compiled
  answered := accounts.answered
  room := accounts.room

/-- A copy has not been called, whatever the method was. -/
theorem Shared.copyMethod_promotion? (shared : Shared) (id : MethodId) {change : Method → Method}
    (body : ∀ m, (change m).body = m.body) :
    let copied := shared.copyMethod id change
    (copied.2.library.method copied.1).promotion? =
      (shared.library.method id).promotion?.map fun _ => {} := by
  intro copied
  have own : copied.2.library.method copied.1 =
      change ((shared.library.method id).renewed ⟨shared.nextTarget⟩) :=
    (shared.library.method_addMethod _ _).trans (if_pos rfl)
  rw [own]
  unfold Method.promotion?
  rw [body]
  unfold Method.renewed
  cases (shared.library.method id).body <;> rfl

/-- A session moves its engine by calls of methods and by changes that keep their counts. After any
such calls each method stands where its own calls have brought it, and the statistics agree. No request
is taken back, a method that is promoted stays as it is, and so does one of which only copies are
called. A call counts once, before anything in its body, and nothing else counts. -/
theorem promotion_tallied :
    (∀ config backend tellsCompiles hooks contexts firstTarget,
      let start := Session.start config backend tellsCompiles hooks contexts firstTarget
      (∀ fuel steps, ∃ calls, start.shared.Counts calls (start.after fuel steps).shared) ∧
      ∀ calls shared, start.shared.Counts calls shared →
        (∀ id, calls.count id < largestCallCount) → shared.Tallies calls) ∧
    (∀ (shared : Shared) calls later, shared.Counts calls later →
      shared.stats.requests.toList <+: later.stats.requests.toList ∧
      ∀ id, ((shared.library.method id).isPromoted →
          later.library.method id = shared.library.method id) ∧
        (id < shared.library.methods.size → id ∉ calls →
          later.library.method id = shared.library.method id)) ∧
    (∀ (shared : Shared) id (change : Method → Method), (∀ m, (change m).body = m.body) →
      let copied := shared.copyMethod id change
      shared.KeepsCounts copied.2 ∧ copied.1 = shared.library.methods.size ∧
        (copied.2.library.method copied.1).promotion? =
          (shared.library.method id).promotion?.map fun _ => {}) ∧
    (∀ fuel id call (s : State), ∃ calls, (s.promote id call.name).2.shared.Counts calls
      (finalState (Engine.invoke (fuel + 1) id call s)).shared) ∧
    ∀ bound ask, (∀ request, Moves (fun s t => s.shared.KeepsCounts t.shared) (ask request)) →
      (∀ node, Moves (fun s t => s.shared.KeepsCounts t.shared) (Tree.eval bound ask node)) ∧
      ∀ id call (s : State), (s.promote id call.name).2.shared.KeepsCounts
        (finalState (Eval.invoke bound ask id call s)).shared := by
  refine ⟨fun config backend tellsCompiles hooks contexts firstTarget => ?_,
    fun shared calls later counts => ⟨counts.requests, fun id => ?_⟩,
    fun shared id change body => ?_,
    fun fuel id call s => ?_, fun bound ask asks => ?_⟩
  · have fresh := Session.start_accounts config backend tellsCompiles hooks contexts firstTarget
    exact ⟨fun fuel steps => Session.after_counts fuel _ steps,
      fun calls shared counts bound => (counts.accounts fresh bound).tallies bound⟩
  · exact ⟨counts.promoted, fun inside notCalled => (counts.uncalled inside notCalled).2⟩
  · have plain (target : Target) : (change ((shared.library.method id).renewed target)).plain =
        change ((shared.library.method id).renewed target) :=
      Method.plain_of_body (m := shared.library.method id) (body _)
    exact ⟨⟨rfl, rfl, rfl, .addMethod (plain _)⟩, rfl, shared.copyMethod_promotion? id body⟩
  · have h := Counted.motion.composing
    obtain ⟨body, counted, invoked⟩ :=
      h.invoked (h.answer fuel) fuel (fun _ => trivial) id call s
    have ends : Engine.invoke (fuel + 1) id call s = body _ := invoked
    rw [ends]
    exact counted _
  · have h := Shared.KeepsCounts.motion.framing
    refine ⟨fun node => h.eval asks bound (fun _ => trivial) node, fun id call s => ?_⟩
    obtain ⟨body, keeps, invoked⟩ := h.invoked asks bound (fun _ => trivial) id call s
    rw [invoked]
    exact keeps _

/-- With a threshold of two, the second call promotes the method, and a third changes nothing. -/
theorem promotion_tallied_second_call :
    let start := (Session.start { threshold := 2 } .lowering true [] 1 1).shared
    let made := (start.addMethod fun target =>
      ⟨Core.object, .pub, .frameAndScope, target, .interpreted ⟨0, {}, .nil⟩ {}⟩).2
    let called (shared : Shared) := (State.promote ⟨shared, default⟩ 13 "again").2.shared
    let twice := called (called made)
    twice.Tallies [13, 13] ∧ (twice.library.method 13).promotionState = some .promoted ∧
      twice.stats.compiled = 1 ∧ twice.stats.requests.toList.map (·.method) = [13] ∧
      ((called twice).library.method 13).promotionState = some .promoted := by
  intro start made called twice
  have first : start.Counts [] made :=
    .keep .refl (.update (.newMethod Core.object .pub ⟨0, {}, .nil⟩) ⟨start, default⟩)
  have second : start.Counts [13] (called made) :=
    .call (s := ⟨made, default⟩) 13 "again" first (by decide +kernel)
  have third : start.Counts [13, 13] twice :=
    .call (s := ⟨called made, default⟩) 13 "again" second (by decide +kernel)
  have bound (id : MethodId) : [13, 13].count id < largestCallCount :=
    Nat.lt_of_le_of_lt List.count_le_length (by decide)
  have tallies := (promotion_tallied.1 { threshold := 2 } .lowering true [] 1 1).2 _ _ third bound
  have fourth : twice.Counts [13] (called twice) :=
    .call (s := ⟨twice, default⟩) 13 "again" .refl (by decide +kernel)
  have stays := ((promotion_tallied.2.1 twice [13] _ fourth).2 13).1 (by decide +kernel)
  refine ⟨tallies, by decide +kernel, by decide +kernel, by decide +kernel, ?_⟩
  rw [stays]
  decide +kernel

end CallEngine
