import CallEngine.Backend
import CallEngine.Proofs.Lowering
/-! The trees that have code: those without rescue clauses, retries, definitions, classes and super
calls outside the bodies of closure literals. -/
namespace CallEngine

namespace Tree

/-- Whether this kind of node can be part of a body that has code. -/
def hasCode : Node → Bool
  | retry | rescue .. | define .. | classBody .. | superCall => false
  | _ => true

end Tree

/-- The value that is passed as a block. -/
def BlockArg.passed {literal node : Type} : BlockArg literal node → Option node
  | .pass value => some value
  | _ => none

namespace Tree

/-- The nodes right under a node, in the order in which they are evaluated. The body of a closure
literal is not among them. -/
def parts : Node → List Node
  | array items | seq items | yield items => items
  | localSet _ _ value | globalSet _ value | raise value => [value]
  | cond test yes no => test :: yes :: no.toList
  | binary _ lhs rhs => [lhs, rhs]
  | call receiver _ args block => receiver.toList ++ (args ++ block.passed.toList)
  | doReturn value | doBreak value | doNext value => value.toList
  | loop test body => [test, body]
  | rescue body handler => [body, handler]
  | define _ _ params body => params.optional.map (·.fallback) ++ [body]
  | classBody _ _ _ _ body => [body]
  | _ => []

/-- The node is there, outside the bodies of closure literals. -/
inductive Occurs (sub : Node) : Node → Prop where
  | here : Occurs sub sub
  | within {part node : Node} : part ∈ node.parts → Occurs sub part → Occurs sub node

/-- The node occurs without code, and all that is evaluated before it has code. What it is made of is
not looked at. -/
inductive FirstWithoutCode (culprit : Node) : Node → Prop where
  | here : culprit.hasCode = false → FirstWithoutCode culprit culprit
  | within {part node : Node} {before after : List Node} : node.hasCode →
    node.parts = before ++ part :: after →
    (∀ earlier ∈ before, ∀ sub, Occurs sub earlier → sub.hasCode) →
      FirstWithoutCode culprit part → FirstWithoutCode culprit node

section lowering

variable {node : Node} {items : List Node} {label : String}

theorem lower_of_not_hasCode (none : node.hasCode = false) : node.lower = .error node.label := by
  cases node with
  | retry | rescue | define | classBody | superCall => rfl
  | _ => cases none

theorem lowerAll_append (first last : List Node) :
    lowerAll (first ++ last) = (do return (← lowerAll first) ++ (← lowerAll last)) := by
  induction first with
  | nil =>
    rw [List.nil_append]
    cases lowerAll last <;> rfl
  | cons item rest ih =>
    simp only [List.cons_append, lowerAll, ih]
    cases item.lower <;> cases lowerAll rest <;> cases lowerAll last <;> rfl

/-- A list has no code because of the first item that has none. -/
theorem lowerAll_error : lowerAll items = .error label ↔ ∃ before item after,
    items = before ++ item :: after ∧ (∃ codes, lowerAll before = .ok codes) ∧
      item.lower = .error label := by
  constructor
  · intro failed
    induction items with
    | nil => cases failed
    | cons item rest ih =>
      cases first : item.lower with
      | error other =>
        rw [lowerAll, first] at failed
        cases failed
        exact ⟨[], item, rest, rfl, ⟨[], rfl⟩, first⟩
      | ok code =>
        have later : lowerAll rest = .error label := by
          cases others : lowerAll rest with
          | error other =>
            rw [lowerAll, first, others] at failed
            exact failed
          | ok codes =>
            rw [lowerAll, first, others] at failed
            cases failed
        obtain ⟨before, culprit, after, split, ⟨codes, lowered⟩, fails⟩ := ih later
        refine ⟨item :: before, culprit, after, ?_, ⟨code :: codes, ?_⟩, fails⟩
        · rw [split, List.cons_append]
        · rw [lowerAll, first, lowered]
          rfl
  · rintro ⟨before, item, after, rfl, ⟨codes, lowered⟩, fails⟩
    rw [lowerAll_append, lowered, lowerAll, fails]
    rfl

theorem lowerAll_ok : (∃ codes, lowerAll items = .ok codes) ↔
    ∀ item ∈ items, ∃ code, item.lower = .ok code := by
  induction items with
  | nil => simp [lowerAll]
  | cons item rest ih =>
    rw [List.forall_mem_cons, ← ih, lowerAll]
    cases item.lower <;> cases lowerAll rest <;> simp [bind, Except.bind, pure, Except.pure]

theorem lowerAll_toList (value : Option Node) :
    lowerAll value.toList = Except.map Option.toList (lowerOption value) := by
  cases value with
  | none => rfl
  | some node =>
    rw [Option.toList, lowerAll, lowerOption]
    cases node.lower <;> rfl

theorem lowerOperand_error (operand : Option Node) :
    lowerOperand operand = .error label ↔ lowerAll operand.toList = .error label := by
  cases operand with
  | none => simp [lowerOperand, lowerAll]
  | some value =>
    rw [lowerOperand, Option.toList, lowerAll]
    cases value.lower <;> simp [lowerAll, bind, Except.bind, pure, Except.pure]

theorem lowerBlock_error (block : BlockArg (Literal StaticId Node) Node) :
    lowerBlock block = .error label ↔ lowerAll block.passed.toList = .error label := by
  cases block with
  | absent | literal => simp [BlockArg.passed, lowerBlock, lowerAll]
  | pass value =>
    rw [BlockArg.passed, lowerBlock, Option.toList, lowerAll]
    cases value.lower <;> simp [lowerAll, bind, Except.bind, pure, Except.pure]

/-- Lowering a node comes to lowering what is right under it. -/
theorem lower_error_parts (has : node.hasCode) :
    node.lower = .error label ↔ lowerAll node.parts = .error label := by
  cases node with
  | retry | rescue | define | classBody | superCall => cases has
  | nil | bool | int | str | self | localGet | globalGet | bareCall | makeProc | makeLambda
  | methodRef | redo | constant | blockGiven => simp [lower, parts, lowerAll]
  | array items | seq items | yield items =>
    rw [lower, parts]
    cases lowerAll items <;> simp [bind, Except.bind, pure, Except.pure]
  | localSet _ _ value | globalSet _ value | raise value =>
    rw [lower, parts, lowerAll]
    cases value.lower <;> simp [lowerAll, bind, Except.bind, pure, Except.pure]
  | binary _ left right | loop left right =>
    rw [lower, parts, lowerAll, lowerAll]
    cases left.lower <;> cases right.lower <;>
      simp [lowerAll, bind, Except.bind, pure, Except.pure]
  | doReturn value | doBreak value | doNext value =>
    rw [lower, parts, ← lowerOperand_error]
    cases lowerOperand value <;> simp [bind, Except.bind, pure, Except.pure]
  | cond test yes no =>
    have last : lowerOperand no = .error label ↔ lowerAll no.toList = .error label :=
      lowerOperand_error no
    rw [lower, parts, lowerAll, lowerAll]
    cases test.lower <;> cases yes.lower <;> cases operand : lowerOperand no <;>
      cases rest : lowerAll no.toList <;> simp_all [bind, Except.bind, pure, Except.pure]
  | call receiver name args block =>
    have last : lowerBlock block = .error label ↔ lowerAll block.passed.toList = .error label :=
      lowerBlock_error block
    rw [lower, parts, lowerAll_append, lowerAll_append, lowerAll_toList]
    cases lowerOption receiver <;> cases lowerAll args <;> cases own : lowerBlock block <;>
      cases rest : lowerAll block.passed.toList <;>
        simp_all [bind, Except.bind, pure, Except.pure, Except.map]

theorem sizeOf_lt_of_mem_parts {part : Node} (member : part ∈ node.parts) :
    sizeOf part < sizeOf node := by
  have ofOption {value : Option Node} (there : part ∈ value.toList) :
      sizeOf part < sizeOf value := by
    rw [Option.mem_toList.1 there]
    simp
  cases node with
  | array items | seq items | yield items =>
    rw [parts] at member
    have less := List.sizeOf_lt_of_mem member
    simp only [array.sizeOf_spec, seq.sizeOf_spec, yield.sizeOf_spec]
    omega
  | localSet _ _ value | globalSet _ value | raise value | classBody _ _ _ _ value =>
    rw [parts, List.mem_singleton] at member
    simp only [member, localSet.sizeOf_spec, globalSet.sizeOf_spec, raise.sizeOf_spec,
      classBody.sizeOf_spec]
    omega
  | binary _ left right | loop left right | rescue left right =>
    rw [parts, List.mem_cons, List.mem_singleton] at member
    rcases member with rfl | rfl <;>
      simp only [binary.sizeOf_spec, loop.sizeOf_spec, rescue.sizeOf_spec] <;> omega
  | doReturn value | doBreak value | doNext value =>
    rw [parts] at member
    have less := ofOption member
    simp only [doReturn.sizeOf_spec, doBreak.sizeOf_spec, doNext.sizeOf_spec]
    omega
  | cond test yes no =>
    rw [parts, List.mem_cons, List.mem_cons] at member
    rw [cond.sizeOf_spec]
    rcases member with rfl | rfl | last
    · omega
    · omega
    · have less := ofOption last
      omega
  | call receiver name args block =>
    rw [parts, List.mem_append, List.mem_append] at member
    rw [call.sizeOf_spec]
    rcases member with first | among | last
    · have less := ofOption first
      omega
    · have less := List.sizeOf_lt_of_mem among
      omega
    · cases block with
      | absent | literal => cases last
      | pass value =>
        rw [List.mem_singleton.1 last, BlockArg.pass.sizeOf_spec]
        omega
  | define name scope params body =>
    rw [parts, List.mem_append, List.mem_singleton] at member
    rw [define.sizeOf_spec]
    rcases member with among | rfl
    · obtain ⟨required, optional, rest, own⟩ := params
      obtain ⟨⟨slot, fallback⟩, inside, rfl⟩ := List.mem_map.1 among
      dsimp only at inside ⊢
      have less := List.sizeOf_lt_of_mem inside
      rw [OptionalParam.mk.sizeOf_spec] at less
      rw [Params.mk.sizeOf_spec]
      omega
    · omega
  | _ => cases member

end lowering

/-- There is code for exactly the trees whose nodes can all be part of a body with code. -/
theorem lower_ok (node : Node) :
    (∃ code, node.lower = .ok code) ↔ ∀ sub, Occurs sub node → sub.hasCode := by
  constructor
  · rintro ⟨code, lowered⟩ sub occurs
    -- What occurs in a tree with code has code, all the way down.
    induction occurs generalizing code with
    | here =>
      cases has : hasCode sub with
      | true => rfl
      | false => cases (lower_of_not_hasCode has).symm.trans lowered
    | @within part node member _ ih =>
      have has : node.hasCode := by
        cases has : node.hasCode with
        | true => rfl
        | false => cases (lower_of_not_hasCode has).symm.trans lowered
      cases result : lowerAll node.parts with
      | error label => cases ((lower_error_parts has).2 result).symm.trans lowered
      | ok codes =>
        obtain ⟨code, own⟩ := lowerAll_ok.1 ⟨codes, result⟩ part member
        exact ih code own
  · intro clean
    cases result : node.lower with
    | ok code => exact ⟨code, rfl⟩
    | error label =>
      have none := (lower_error_parts (clean node .here)).1 result
      obtain ⟨before, part, after, split, -, fails⟩ := lowerAll_error.1 none
      have member : part ∈ node.parts := by simp [split]
      have less := sizeOf_lt_of_mem_parts member
      obtain ⟨code, own⟩ := (lower_ok part).2 fun sub occurs => clean sub (.within member occurs)
      cases own.symm.trans fails
termination_by sizeOf node

/-- Otherwise the label is that of the first node without code. -/
theorem lower_error (node : Node) (label : String) : node.lower = .error label ↔
    ∃ culprit, FirstWithoutCode culprit node ∧ culprit.label = label := by
  constructor
  · intro fails
    cases has : node.hasCode with
    | false =>
      refine ⟨node, .here has, ?_⟩
      cases (lower_of_not_hasCode has).symm.trans fails
      rfl
    | true =>
      have none := (lower_error_parts has).1 fails
      obtain ⟨before, part, after, split, lowered, partFails⟩ := lowerAll_error.1 none
      have member : part ∈ node.parts := by simp [split]
      have less := sizeOf_lt_of_mem_parts member
      obtain ⟨culprit, first, own⟩ := (lower_error part label).1 partFails
      refine ⟨culprit, .within has split ?_ first, own⟩
      intro earlier inside
      exact (lower_ok earlier).1 (lowerAll_ok.1 lowered earlier inside)
  · rintro ⟨culprit, first, rfl⟩
    induction first with
    | here none => exact lower_of_not_hasCode none
    | @within part node before after has split clean _ ih =>
      apply (lower_error_parts has).2
      apply lowerAll_error.2
      refine ⟨before, part, after, split, ?_, ih⟩
      apply lowerAll_ok.2
      intro earlier inside
      exact (lower_ok earlier).2 (clean earlier inside)
termination_by sizeOf node

theorem compile_ok {name : String} {body : Node} {code : Code} :
    Backend.compile name body = .ok code ↔ body.lower = .ok code := by
  rw [Backend.compile]
  cases body.lower with
  | ok lowered => constructor <;> intro same <;> cases same <;> rfl
  | error label => constructor <;> intro same <;> cases same

theorem compile_error {name : String} {body : Node} {error : CompileError} :
    Backend.compile name body = .error error ↔
      ∃ label, body.lower = .error label ∧ error = .unsupported name label := by
  rw [Backend.compile]
  cases body.lower with
  | ok lowered =>
    constructor
    · intro same
      cases same
    · rintro ⟨label, same, -⟩
      cases same
  | error label =>
    constructor
    · intro same
      cases same
      exact ⟨label, rfl, rfl⟩
    · rintro ⟨label', same, rfl⟩
      cases same
      rfl

/-- There is code for a body unless a node that cannot be part of it occurs outside the bodies of
closure literals, and then the first such node is named. The code does in every state what the tree
does. -/
theorem compiles_sublanguage (name : String) (body : Node) :
    ((∃ code, Backend.compile name body = .ok code) ↔
      ∀ sub, Occurs sub body → sub.hasCode) ∧
    (∀ error, Backend.compile name body = .error error ↔
      ∃ culprit, FirstWithoutCode culprit body ∧ error = .unsupported name culprit.label) ∧
    ∀ code, Backend.compile name body = .ok code →
      ∀ bound ask s, code.exec bound ask s = body.eval bound ask s := by
  simp only [compile_ok, compile_error]
  refine ⟨lower_ok body, ?_, ?_⟩
  · intro error
    constructor
    · rintro ⟨label, fails, rfl⟩
      obtain ⟨culprit, first, rfl⟩ := (lower_error body label).1 fails
      exact ⟨culprit, first, rfl⟩
    · rintro ⟨culprit, first, rfl⟩
      exact ⟨culprit.label, (lower_error body _).2 ⟨culprit, first, rfl⟩, rfl⟩
  · intro code lowered bound ask s
    rw [exec_lower bound ask body lowered]

/-- A rescue clause in a closure literal is no obstacle, nor is a break that nothing claims. -/
theorem compiles_closure_with_rescue :
    let guarded : Node := .rescue (.raise (.str "no")) .retry
    let body : Node := .seq [.makeProc ⟨0, {}, guarded⟩, .doBreak (some (.int 1))]
    ∃ code, Backend.compile "m" body = .ok code ∧
      ∀ bound ask s, code.exec bound ask s = body.eval bound ask s := by
  intro guarded body
  exact ⟨_, rfl, (compiles_sublanguage "m" body).2.2 _ rfl⟩

/-- The first node without code in the order of evaluation is the one that is named. -/
example : Backend.compile "m" (.call (some (.loop .nil (.rescue .retry .nil))) "f" [.superCall]
    .absent) = .error (.unsupported "m" "rescue") := rfl

end Tree

end CallEngine
