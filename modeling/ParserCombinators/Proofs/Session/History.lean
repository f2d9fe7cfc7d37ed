import ParserCombinators.Proofs.Parser.Stability
import ParserCombinators.Proofs.Session.Scope

/-!
# The history of a session

Every step that a session takes is a step of the grammar that is put together in it, or changes
nothing, whether its answer is a fault or not. So runs are as stable in a session as they are in
any construction.
-/

namespace ParserCombinators.Session

variable {session later : Session} {parser : AnyParser}

/-- The grammar that is put together in the session. -/
def construction (session : Session) : Construction Value :=
  ⟨session.names.map (·.2), session.cells⟩

/-- The session after steps in order. -/
def after (session : Session) (steps : List Step) : Session :=
  steps.foldl (fun reached step ↦ (reached.take step).2) session

/-- All parsers that have names are within the scope of the cells that have been made. -/
def IsScoped (session : Session) : Prop :=
  ∀ entry ∈ session.parsers, entry.2.IsWithin session.construction.Knows

/-! ## What is built -/

theorem IsScoped.builds (hscoped : session.IsScoped) (recipe : Recipe) :
    Builds (·.IsWithin session.construction.Knows) (recipe.build session.parserNamed) := by
  refine builds_recipe (fun name parser hparser ↦ ?_) recipe
  unfold parserNamed at hparser
  split at hparser
  · next hfound =>
      cases hparser
      exact hscoped _ (List.mem_of_find?_eq_some hfound)
  · cases hparser

/-- What is to be put into a cell, once it is built. -/
def assignee (session : Session) : Content → Except Fault (Assignee Value)
  | .recipe recipe => (recipe.build session.parserNamed).map .parser
  | .other shown => .ok (.other shown)

theorem assign_eq (session : Session) (name : String) (content : Content) :
    session.assign name content = session.assignee content >>= fun assignee ↦
      match session.cellNamed name with
      | .ok cell => session.cells.assign cell assignee >>= fun cells ↦ .ok { session with cells }
      | .error fault => .error fault := by
  cases content <;> rfl

theorem IsScoped.builds_assignee (hscoped : session.IsScoped) : (content : Content) →
    Builds (·.IsWithin session.construction.Knows) (session.assignee content)
  | .recipe recipe => (hscoped.builds recipe).map fun _ ↦ id
  | .other _ => builds_ok trivial

theorem knows_of_cellNamed {name : String} {cell : Cell}
    (hcell : session.cellNamed name = .ok cell) : session.construction.Knows cell := by
  unfold cellNamed at hcell
  split at hcell
  · next found hlookup =>
      cases hcell
      obtain ⟨before, behind, hnames, -⟩ := List.lookup_eq_some_iff.1 hlookup
      exact List.mem_map.2 ⟨(name, cell), by simp [hnames], rfl⟩
  · cases hcell

/-! ## One step -/

/-- What is known of the session after a step. -/
structure Follows (later session : Session) : Prop where
  becomes : session.construction.Becomes later.construction
  parsers : ∀ entry ∈ later.parsers,
    entry ∈ session.parsers ∨ entry.2.IsWithin later.construction.Knows

theorem Follows.refl (session : Session) : session.Follows session := ⟨.refl, fun _ ↦ .inl⟩

theorem IsScoped.of_follows (hscoped : session.IsScoped) (hlater : later.Follows session) :
    later.IsScoped := by
  intro entry hentry
  obtain hold | hnew := hlater.parsers entry hentry
  · exact (hscoped entry hold).mono hlater.becomes.extends.knows
  · exact hnew

theorem follows_forward (session : Session) (name : String) (label : Option String) :
    (session.forward name label).Follows session where
  becomes := .single (.forward label)
  parsers := List.forall_mem_cons.2
    ⟨.inr (Parser.isWithin_forwarding.2 List.mem_cons_self), fun _ ↦ .inl⟩

theorem IsScoped.follows_define (hscoped : session.IsScoped) (name : String) (recipe : Recipe) :
    Builds (·.Follows session) (session.define name recipe) :=
  (hscoped.builds recipe).bind fun _ hparser ↦
    builds_ok ⟨.refl, List.forall_mem_cons.2 ⟨.inr hparser, fun _ ↦ .inl⟩⟩

theorem IsScoped.follows_assign (hscoped : session.IsScoped) (name : String) (content : Content) :
    Builds (·.Follows session) (session.assign name content) := by
  rw [assign_eq]
  refine (hscoped.builds_assignee content).bind fun assignee hassignee ↦ ?_
  cases hcell : session.cellNamed name with
  | error fault => exact fun _ ↦ nofun
  | ok cell =>
    have hassign : Builds (fun cells ↦ session.cells.assign cell assignee = .ok cells)
      (session.cells.assign cell assignee) := fun _ ↦ id
    refine hassign.bind fun cells hcells ↦ builds_ok ⟨.single ?_, fun _ ↦ .inl⟩
    have hstep : session.construction.Step (session.construction.assign cell assignee) :=
      .assign cell (knows_of_cellNamed hcell) assignee hassignee
    rwa [Construction.assign, show session.construction.cells.assign cell assignee = _ from hcells]
      at hstep

/-- A fault leaves the session as it was. -/
theorem follows_change {result : Except Fault Session}
    (hresult : Builds (·.Follows session) result) : (session.change result).2.Follows session := by
  cases result with
  | ok changed => exact hresult changed rfl
  | error fault => exact .refl session

theorem IsScoped.follows_take (hscoped : session.IsScoped) (step : Step) :
    (session.take step).2.Follows session := by
  cases step with
  | forward name label => exact session.follows_forward name label
  | define name recipe => exact follows_change (hscoped.follows_define name recipe)
  | assign name content => exact follows_change (hscoped.follows_assign name content)
  | isAssigned | describe | run => exact .refl session

/-! ## Many steps -/

theorem isScoped_empty : empty.IsScoped := List.forall_mem_nil _

theorem IsScoped.after (hscoped : session.IsScoped) (steps : List Step) :
    session.construction.Becomes (session.after steps).construction ∧
      (session.after steps).IsScoped := by
  induction steps generalizing session with
  | nil => exact ⟨.refl, hscoped⟩
  | cons step rest ih =>
    have hnext := hscoped.follows_take step
    obtain ⟨hbecomes, hlater⟩ := ih (hscoped.of_follows hnext)
    exact ⟨hnext.becomes.trans hbecomes, hlater⟩

/-- The parser was built from a recipe on the way to the session. -/
def HasBuilt (session : Session) (parser : AnyParser) : Prop :=
  ∃ (early between : List Step) (recipe : Recipe), session = (empty.after early).after between ∧
    recipe.build (empty.after early).parserNamed = .ok parser

/-- A run that ends meets an empty cell, or it is the same after any further steps. -/
theorem HasBuilt.meetsEmptyCell_or_runAt_eq (hbuilt : session.HasBuilt parser) (text : Text)
    (position : Int) (hends : session.cells.Ends parser text position) :
    session.construction.MeetsEmptyCell (session.cells.runAt parser text position) ∨
      ∀ steps, (session.after steps).cells.runAt parser text position =
        session.cells.runAt parser text position := by
  obtain ⟨early, between, recipe, rfl, hparser⟩ := hbuilt
  obtain ⟨hearly, hscoped⟩ := isScoped_empty.after early
  have hwithin := hscoped.builds recipe parser hparser
  obtain ⟨hbetween, hscoped⟩ := hscoped.after between
  have hconstruction := Construction.isScoped_empty.becomes (hearly.trans hbetween)
  refine (hconstruction.meets_or_isFinal (hwithin.mono hbetween.extends.knows) hends).imp_right ?_
  exact fun hfinal steps ↦ hfinal.later _ (hscoped.after steps).1

end ParserCombinators.Session
