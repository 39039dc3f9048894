import CallEngine.Proofs.Lowering
/-! Trees that address only variables which their scopes have, in source form and once their scopes
have identities. -/
namespace CallEngine

/-- How many variables a scope has, if a closure or a body of its own can have that scope. -/
structure Sizing (σ : Type) where
  closure : σ → Option Nat
  method : σ → Option Nat

/-- Scopes that were there keep their sizes. -/
structure Sizing.Extends {σ : Type} (z z' : Sizing σ) : Prop where
  closure : ∀ {scope size}, z.closure scope = some size → z'.closure scope = some size
  method : ∀ {scope size}, z.method scope = some size → z'.method scope = some size

/-- A scope with more parameters than variables cannot be made. -/
def ScopeDecl.sizing : Sizing ScopeDecl where
  closure decl := some decl.vars.length
  method decl :=
    if decl.layout.required + decl.layout.optional ≤ decl.vars.length then some decl.vars.length
    else none

def StaticScope.sizing (statics : Array StaticScope) : Sizing StaticId where
  closure id := statics[id]?.map StaticScope.size
  method id := statics[id]?.map StaticScope.size

/-- Whether the address is that of a variable, given how many each scope has, innermost first. -/
def hasVariable (sizes : List Nat) (offset depth : Nat) : Bool :=
  sizes[depth]?.any (offset < ·)

def ClosureParams.fits (params : ClosureParams) (size : Nat) : Bool :=
  params.slots.all (· < size) && params.rest.all (· < size)

def RestParam.fits (size : Nat) : RestParam → Bool
  | .named slot => slot < size
  | .absent | .anonymous => true

namespace Tree

variable {σ : Type} (z : Sizing σ)

mutual

def isScoped (sizes : List Nat) : Tree σ → Bool
  | localGet offset depth => hasVariable sizes offset depth
  | localSet offset depth value => hasVariable sizes offset depth && isScoped sizes value
  | array items | seq items | yield items => allScoped sizes items
  | globalSet _ value | raise value => isScoped sizes value
  | cond test yes no => isScoped sizes test && isScoped sizes yes && optionScoped sizes no
  | binary _ lhs rhs => isScoped sizes lhs && isScoped sizes rhs
  | call receiver _ args block =>
    optionScoped sizes receiver && allScoped sizes args && blockScoped sizes block
  | makeProc literal | makeLambda literal => literalScoped sizes literal
  | doReturn value | doBreak value | doNext value => optionScoped sizes value
  | loop test body => isScoped sizes test && isScoped sizes body
  | rescue body handler => isScoped sizes body && isScoped sizes handler
  | define _ scope params body => (z.method scope).any fun size =>
    paramsScoped size params && isScoped [size] body
  | classBody _ _ _ scope body => (z.method scope).any fun size => isScoped [size] body
  | nil | bool _ | int _ | str _ | self | globalGet _ | bareCall _ | methodRef _ | redo | retry
  | constant _ | superCall | blockGiven => true

def allScoped (sizes : List Nat) : List (Tree σ) → Bool
  | [] => true
  | item :: rest => isScoped sizes item && allScoped sizes rest

def optionScoped (sizes : List Nat) : Option (Tree σ) → Bool
  | none => true
  | some value => isScoped sizes value

def literalScoped (sizes : List Nat) : Literal σ (Tree σ) → Bool
  | ⟨scope, params, body⟩ => (z.closure scope).any fun size =>
    params.fits size && isScoped (size :: sizes) body

def blockScoped (sizes : List Nat) : BlockArg (Literal σ (Tree σ)) (Tree σ) → Bool
  | .absent => true
  | .literal literal => literalScoped sizes literal
  | .pass value => isScoped sizes value

def paramsScoped (size : Nat) : Params (Tree σ) → Bool
  | ⟨required, optional, rest, block⟩ =>
    required ≤ size && optionalScoped size optional && rest.fits size && block.all (· < size)

def optionalScoped (size : Nat) : List (OptionalParam (Tree σ)) → Bool
  | [] => true
  | ⟨slot, fallback⟩ :: rest => slot < size && isScoped [size] fallback && optionalScoped size rest

end

variable {z} {z' : Sizing σ}

mutual

theorem isScoped_mono (grows : z.Extends z') {sizes : List Nat} (tree : Tree σ) (fits : tree.isScoped z sizes) :
    tree.isScoped z' sizes := by
  cases tree with
  | localGet => exact fits
  | localSet offset depth value =>
    simp only [isScoped, Bool.and_eq_true] at fits ⊢
    exact ⟨fits.1, isScoped_mono grows value fits.2⟩
  | array items | seq items | yield items => exact allScoped_mono grows items fits
  | globalSet _ value | raise value => exact isScoped_mono grows value fits
  | cond test yes no =>
    simp only [isScoped, Bool.and_eq_true] at fits ⊢
    exact ⟨⟨isScoped_mono grows test fits.1.1, isScoped_mono grows yes fits.1.2⟩, optionScoped_mono grows no fits.2⟩
  | binary _ lhs rhs | loop lhs rhs | rescue lhs rhs =>
    simp only [isScoped, Bool.and_eq_true] at fits ⊢
    exact ⟨isScoped_mono grows lhs fits.1, isScoped_mono grows rhs fits.2⟩
  | call receiver _ args block =>
    simp only [isScoped, Bool.and_eq_true] at fits ⊢
    exact ⟨⟨optionScoped_mono grows receiver fits.1.1, allScoped_mono grows args fits.1.2⟩,
      blockScoped_mono grows block fits.2⟩
  | makeProc literal | makeLambda literal => exact literalScoped_mono grows literal fits
  | doReturn value | doBreak value | doNext value => exact optionScoped_mono grows value fits
  | define _ scope params body =>
    simp only [isScoped, Option.any_eq_true, Bool.and_eq_true] at fits ⊢
    obtain ⟨size, known, inParams, inBody⟩ := fits
    exact ⟨size, grows.method known, paramsScoped_mono grows params inParams, isScoped_mono grows body inBody⟩
  | classBody _ _ _ scope body =>
    simp only [isScoped, Option.any_eq_true] at fits ⊢
    obtain ⟨size, known, inBody⟩ := fits
    exact ⟨size, grows.method known, isScoped_mono grows body inBody⟩
  | nil | bool | int | str | self | globalGet | bareCall | methodRef | redo | retry | constant
  | superCall | blockGiven => rfl

theorem allScoped_mono (grows : z.Extends z') {sizes : List Nat} (items : List (Tree σ))
    (fits : allScoped z sizes items) : allScoped z' sizes items := by
  cases items with
  | nil => rfl
  | cons item rest =>
    simp only [allScoped, Bool.and_eq_true] at fits ⊢
    exact ⟨isScoped_mono grows item fits.1, allScoped_mono grows rest fits.2⟩

theorem optionScoped_mono (grows : z.Extends z') {sizes : List Nat} (value : Option (Tree σ))
    (fits : optionScoped z sizes value) : optionScoped z' sizes value := by
  cases value with
  | none => rfl
  | some value => exact isScoped_mono grows value fits

theorem literalScoped_mono (grows : z.Extends z') {sizes : List Nat} (literal : Literal σ (Tree σ))
    (fits : literalScoped z sizes literal) : literalScoped z' sizes literal := by
  obtain ⟨scope, params, body⟩ := literal
  simp only [literalScoped, Option.any_eq_true, Bool.and_eq_true] at fits ⊢
  obtain ⟨size, known, inParams, inBody⟩ := fits
  exact ⟨size, grows.closure known, inParams, isScoped_mono grows body inBody⟩

theorem blockScoped_mono (grows : z.Extends z') {sizes : List Nat} (block : BlockArg (Literal σ (Tree σ)) (Tree σ))
    (fits : blockScoped z sizes block) : blockScoped z' sizes block := by
  cases block with
  | absent => rfl
  | literal literal => exact literalScoped_mono grows literal fits
  | pass value => exact isScoped_mono grows value fits

theorem paramsScoped_mono (grows : z.Extends z') {size : Nat} (params : Params (Tree σ))
    (fits : paramsScoped z size params) : paramsScoped z' size params := by
  obtain ⟨required, optional, rest, block⟩ := params
  simp only [paramsScoped, Bool.and_eq_true] at fits ⊢
  exact ⟨⟨⟨fits.1.1.1, optionalScoped_mono grows optional fits.1.1.2⟩, fits.1.2⟩, fits.2⟩

theorem optionalScoped_mono (grows : z.Extends z') {size : Nat} (params : List (OptionalParam (Tree σ)))
    (fits : optionalScoped z size params) : optionalScoped z' size params := by
  match params with
  | [] => rfl
  | ⟨slot, fallback⟩ :: rest =>
    simp only [optionalScoped, Bool.and_eq_true] at fits ⊢
    exact ⟨⟨fits.1.1, isScoped_mono grows fallback fits.1.2⟩, optionalScoped_mono grows rest fits.2⟩

end

end Tree

theorem StaticScope.size_push (z : Array StaticScope) (scope : StaticScope) :
    (z.push scope)[z.size]?.map StaticScope.size = some scope.size := by
  rw [Array.getElem?_push_size, Option.map_some]

/-- Scopes that were made stay as they are. -/
def StaticScope.Persist (z z' : Array StaticScope) : Prop :=
  ∀ (id : StaticId) scope, z[id]? = some scope → z'[id]? = some scope

namespace StaticScope.Persist

theorem refl (z : Array StaticScope) : Persist z z := fun _ _ found => found

theorem trans {a b c : Array StaticScope} (first : Persist a b) (second : Persist b c) :
    Persist a c :=
  fun id scope found => second id scope (first id scope found)

theorem push (z : Array StaticScope) (scope : StaticScope) : Persist z (z.push scope) := by
  intro id old found
  obtain ⟨inside, -⟩ := Array.getElem?_eq_some_iff.1 found
  rw [Array.getElem?_push, if_neg (Nat.ne_of_lt inside), found]

theorem sizing {z z' : Array StaticScope} (persist : Persist z z') :
    (StaticScope.sizing z).Extends (StaticScope.sizing z') := by
  have kept {id : StaticId} {size : Nat} (known : z[id]?.map StaticScope.size = some size) :
      z'[id]?.map StaticScope.size = some size := by
    obtain ⟨scope, found, rfl⟩ := Option.map_eq_some_iff.1 known
    rw [persist id scope found, Option.map_some]
  exact ⟨kept, kept⟩

end StaticScope.Persist

open StaticScope in
/-- From memories that have the scopes `z`, the resolver only makes further ones, does not fail, and
gives what fits them all. -/
def Resolves {α : Type} (z : Array StaticScope) (x : Resolver α)
    (fits : Array StaticScope → α → Prop) : Prop :=
  ∀ m : Memory, Persist z m.statics →
    ∃ a m', x m = .ok a m' ∧ m'.cells = m.cells ∧ Persist m.statics m'.statics ∧ fits m'.statics a

namespace Resolves
open StaticScope

variable {α β : Type} {z : Array StaticScope}

theorem pure {fits : Array StaticScope → α → Prop} {a : α}
    (holds : ∀ z', Persist z z' → fits z' a) : Resolves z (Pure.pure a) fits :=
  fun m persist => ⟨a, m, rfl, rfl, .refl _, holds _ persist⟩

theorem bind {x : Resolver α} {f : α → Resolver β} {fits : Array StaticScope → α → Prop}
    {fits' : Array StaticScope → β → Prop} (first : Resolves z x fits)
    (rest : ∀ z' a, Persist z z' → fits z' a → Resolves z' (f a) fits') :
    Resolves z (x >>= f) fits' := by
  intro m persist
  obtain ⟨a, m', made, cells, persist', fit⟩ := first m persist
  obtain ⟨b, m'', made', cells', persist'', fit'⟩ :=
    rest _ a (persist.trans persist') fit m' (.refl _)
  refine ⟨b, m'', ?_, cells'.trans cells, persist'.trans persist'', fit'⟩
  simp only [Bind.bind, EStateM.bind, made, made']

theorem enter (scope : StaticScope) : Resolves z (Resolver.enter scope)
    fun z' id => z'[id]?.map StaticScope.size = some scope.size := by
  intro m persist
  exact ⟨_, _, rfl, rfl, .push m.statics scope, size_push m.statics scope⟩

theorem enterClosure (parent : StaticId) (decl : ScopeDecl) :
    Resolves z (Resolver.enterClosure parent decl)
      fun z' id => (StaticScope.sizing z').closure id = some decl.vars.length :=
  fun m => enter
    { kind := .closure, enclosing := parent :: (m.static parent).enclosing, vars := decl.vars } m

theorem enterMethod {decl : ScopeDecl} {size : Nat}
    (known : ScopeDecl.sizing.method decl = some size) :
    Resolves z (Resolver.enterMethod decl)
      fun z' id => (StaticScope.sizing z').method id = some size := by
  unfold ScopeDecl.sizing at known
  dsimp only at known
  split at known <;> cases known
  next layout =>
  have fits : StaticScope.withLayout { vars := decl.vars } decl.layout =
      .ok { vars := decl.vars, layout := decl.layout } := if_pos layout
  rw [Resolver.enterMethod, fits]
  exact enter _

end Resolves

namespace Tree
open StaticScope

mutual

/-- The tree that comes out fits the scopes that were made as the source tree fits what it
declares. -/
theorem resolve_scoped (z : Array StaticScope) (parent : StaticId) {sizes : List Nat}
    (source : Source) (fits : source.isScoped ScopeDecl.sizing sizes) :
    Resolves z (source.resolve parent) fun z' node => node.isScoped (sizing z') sizes := by
  cases source with
  | nil | bool | int | str | self | globalGet | bareCall | methodRef | redo | retry | constant
  | superCall | blockGiven => exact .pure fun _ _ => rfl
  | localGet => exact .pure fun _ _ => fits
  | localSet offset depth value =>
    simp only [isScoped, Bool.and_eq_true] at fits
    refine (resolve_scoped z parent value fits.2).bind fun z' value _ first =>
      .pure fun z'' later => ?_
    simp only [isScoped, Bool.and_eq_true]
    exact ⟨fits.1, isScoped_mono later.sizing value first⟩
  | array items | seq items | yield items =>
    exact (resolveAll_scoped z parent items fits).bind fun z' items _ first =>
      .pure fun z'' later => allScoped_mono later.sizing items first
  | globalSet _ value | raise value =>
    exact (resolve_scoped z parent value fits).bind fun z' value _ first =>
      .pure fun z'' later => isScoped_mono later.sizing value first
  | binary _ lhs rhs | loop lhs rhs | rescue lhs rhs =>
    simp only [isScoped, Bool.and_eq_true] at fits
    refine (resolve_scoped z parent lhs fits.1).bind fun z' lhs _ first =>
      (resolve_scoped z' parent rhs fits.2).bind fun z'' rhs next second => .pure fun _ later => ?_
    simp only [isScoped, Bool.and_eq_true]
    exact ⟨isScoped_mono (next.trans later).sizing lhs first, isScoped_mono later.sizing rhs second⟩
  | cond test yes no =>
    simp only [isScoped, Bool.and_eq_true] at fits
    refine (resolve_scoped z parent test fits.1.1).bind fun z₁ test _ first =>
      (resolve_scoped z₁ parent yes fits.1.2).bind fun z₂ yes next second =>
        (resolveOption_scoped z₂ parent no fits.2).bind fun z₃ no last third =>
          .pure fun _ later => ?_
    simp only [isScoped, Bool.and_eq_true]
    exact ⟨⟨isScoped_mono ((next.trans last).trans later).sizing test first,
      isScoped_mono (last.trans later).sizing yes second⟩, optionScoped_mono later.sizing no third⟩
  | call receiver _ args block =>
    simp only [isScoped, Bool.and_eq_true] at fits
    refine (resolveOption_scoped z parent receiver fits.1.1).bind fun z₁ receiver _ first =>
      (resolveAll_scoped z₁ parent args fits.1.2).bind fun z₂ args next second =>
        (resolveBlock_scoped z₂ parent block fits.2).bind fun z₃ block last third =>
          .pure fun _ later => ?_
    simp only [isScoped, Bool.and_eq_true]
    exact ⟨⟨optionScoped_mono ((next.trans last).trans later).sizing receiver first,
      allScoped_mono (last.trans later).sizing args second⟩,
      blockScoped_mono later.sizing block third⟩
  | makeProc literal | makeLambda literal =>
    exact (resolveLiteral_scoped z parent literal fits).bind fun _ literal _ first =>
      .pure fun _ later => literalScoped_mono later.sizing literal first
  | doReturn value | doBreak value | doNext value =>
    exact (resolveOption_scoped z parent value fits).bind fun _ value _ first =>
      .pure fun _ later => optionScoped_mono later.sizing value first
  | define _ decl params body =>
    simp only [isScoped, Option.any_eq_true, Bool.and_eq_true] at fits
    obtain ⟨size, known, inParams, inBody⟩ := fits
    refine (Resolves.enterMethod known).bind fun z₁ scope _ sized =>
      (resolveParams_scoped z₁ scope params inParams).bind fun z₂ params next second =>
        (resolve_scoped z₂ scope body inBody).bind fun z₃ body last third => .pure fun _ later => ?_
    simp only [isScoped, Option.any_eq_true, Bool.and_eq_true]
    exact ⟨size, ((next.trans last).trans later).sizing.method sized,
      paramsScoped_mono (last.trans later).sizing params second,
      isScoped_mono later.sizing body third⟩
  | classBody _ _ _ decl body =>
    simp only [isScoped, Option.any_eq_true] at fits
    obtain ⟨size, known, inBody⟩ := fits
    refine (Resolves.enterMethod known).bind fun z₁ scope _ sized =>
      (resolve_scoped z₁ scope body inBody).bind fun z₂ body next second => .pure fun _ later => ?_
    simp only [isScoped, Option.any_eq_true]
    exact ⟨size, (next.trans later).sizing.method sized, isScoped_mono later.sizing body second⟩

theorem resolveAll_scoped (z : Array StaticScope) (parent : StaticId) {sizes : List Nat}
    (items : List Source) (fits : allScoped ScopeDecl.sizing sizes items) :
    Resolves z (resolveAll parent items) fun z' nodes => allScoped (sizing z') sizes nodes := by
  cases items with
  | nil => exact .pure fun _ _ => rfl
  | cons item rest =>
    simp only [allScoped, Bool.and_eq_true] at fits
    refine (resolve_scoped z parent item fits.1).bind fun z' item _ first =>
      (resolveAll_scoped z' parent rest fits.2).bind fun z'' rest next second =>
        .pure fun _ later => ?_
    simp only [allScoped, Bool.and_eq_true]
    exact ⟨isScoped_mono (next.trans later).sizing item first,
      allScoped_mono later.sizing rest second⟩

theorem resolveOption_scoped (z : Array StaticScope) (parent : StaticId) {sizes : List Nat}
    (value : Option Source) (fits : optionScoped ScopeDecl.sizing sizes value) :
    Resolves z (resolveOption parent value) fun z' node => optionScoped (sizing z') sizes node := by
  cases value with
  | none => exact .pure fun _ _ => rfl
  | some value =>
    exact (resolve_scoped z parent value fits).bind fun _ value _ first =>
      .pure fun _ later => isScoped_mono later.sizing value first

theorem resolveLiteral_scoped (z : Array StaticScope) (parent : StaticId) {sizes : List Nat}
    (literal : Literal ScopeDecl Source) (fits : literalScoped ScopeDecl.sizing sizes literal) :
    Resolves z (resolveLiteral parent literal)
      fun z' literal => literalScoped (sizing z') sizes literal := by
  obtain ⟨decl, params, body⟩ := literal
  simp only [literalScoped, Option.any_eq_true, Bool.and_eq_true] at fits
  obtain ⟨size, known, inParams, inBody⟩ := fits
  obtain rfl := Option.some.inj known
  refine (Resolves.enterClosure parent decl).bind fun z₁ scope _ sized =>
    (resolve_scoped z₁ scope body inBody).bind fun z₂ body next second => .pure fun _ later => ?_
  simp only [literalScoped, Option.any_eq_true, Bool.and_eq_true]
  exact ⟨_, (next.trans later).sizing.closure sized, inParams,
    isScoped_mono later.sizing body second⟩

theorem resolveBlock_scoped (z : Array StaticScope) (parent : StaticId) {sizes : List Nat}
    (block : BlockArg (Literal ScopeDecl Source) Source)
    (fits : blockScoped ScopeDecl.sizing sizes block) :
    Resolves z (resolveBlock parent block) fun z' block => blockScoped (sizing z') sizes block := by
  cases block with
  | absent => exact .pure fun _ _ => rfl
  | literal literal =>
    exact (resolveLiteral_scoped z parent literal fits).bind fun _ literal _ first =>
      .pure fun _ later => literalScoped_mono later.sizing literal first
  | pass value =>
    exact (resolve_scoped z parent value fits).bind fun _ value _ first =>
      .pure fun _ later => isScoped_mono later.sizing value first

theorem resolveParams_scoped (z : Array StaticScope) (scope : StaticId) {size : Nat}
    (params : Params Source) (fits : paramsScoped ScopeDecl.sizing size params) :
    Resolves z (resolveParams scope params)
      fun z' params => paramsScoped (sizing z') size params := by
  obtain ⟨required, optional, rest, block⟩ := params
  simp only [paramsScoped, Bool.and_eq_true] at fits
  refine (resolveOptional_scoped z scope optional fits.1.1.2).bind fun _ optional _ first =>
    .pure fun _ later => ?_
  simp only [paramsScoped, Bool.and_eq_true]
  exact ⟨⟨⟨fits.1.1.1, optionalScoped_mono later.sizing optional first⟩, fits.1.2⟩, fits.2⟩

theorem resolveOptional_scoped (z : Array StaticScope) (scope : StaticId) {size : Nat}
    (params : List (OptionalParam Source)) (fits : optionalScoped ScopeDecl.sizing size params) :
    Resolves z (resolveOptional scope params)
      fun z' params => optionalScoped (sizing z') size params := by
  match params with
  | [] => exact .pure fun _ _ => rfl
  | ⟨slot, fallback⟩ :: rest =>
    simp only [optionalScoped, Bool.and_eq_true] at fits
    refine (resolve_scoped z scope fallback fits.1.2).bind fun z₁ fallback _ first =>
      (resolveOptional_scoped z₁ scope rest fits.2).bind fun z₂ rest next second =>
        .pure fun _ later => ?_
    simp only [optionalScoped, Bool.and_eq_true]
    exact ⟨⟨fits.1.1, isScoped_mono (next.trans later).sizing fallback first⟩,
      optionalScoped_mono later.sizing rest second⟩

end

end Tree

end CallEngine
