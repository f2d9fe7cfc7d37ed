import ParserCombinators.Parser.Cells

/-!
# Comparing the runs of a parser

A parser is run twice, on two texts that are alike from two positions on, and with two readings of
the rules that it refers to. If the readings of the rules compare, then so do the runs of every
parser: the second run is the first one moved by a distance, or the first run ended in a way that
was excused from the start. The stops of the first run stay in its text.

The lemmas on runs come first. With them the comparison is proved for one way of combining matchers
after another, and by induction on the parser for all of them together.
-/

namespace ParserCombinators

variable {κ ρ α β γ : Type}

/-! ## Positions -/

/-- A run from `start` can stop at `stop`: it consumes nothing, or characters of the text. -/
def Text.Reaches (text : Text) (start stop : Int) : Prop :=
  stop = start ∨ 0 ≤ start ∧ start < stop ∧ stop ≤ text.size

theorem Text.Reaches.refl {text : Text} {start : Int} : text.Reaches start start := .inl rfl

theorem Text.Reaches.trans {text : Text} {start middle stop : Int}
    (hfirst : text.Reaches start middle) (hsecond : text.Reaches middle stop) :
    text.Reaches start stop := by
  unfold Reaches at *
  omega

theorem Text.Reaches.le {text : Text} {start stop : Int} (hstop : text.Reaches start stop) :
    start ≤ stop := by
  unfold Reaches at hstop
  omega

theorem Text.reaches_succ {text : Text} {position : Int} {c : Char}
    (hc : text.charAt? position = some c) : text.Reaches position (position + 1) := by
  obtain ⟨hnonneg, hsize⟩ := lt_size_of_charAt? hc
  exact .inr ⟨hnonneg, by omega, by omega⟩

/-! ## Moved runs -/

def Event.moved (distance : Int) : Event → Event
  | ran tag start stop => ran tag (start + distance) (stop.map (· + distance))
  | started label => started label
  | finished label => finished label
  | closed label => closed label

def Outcome.moved (distance : Int) : Outcome α → Outcome α
  | success value position => success value (position + distance)
  | failure => failure
  | raised fault => raised fault
  | endless => endless

/-- The run with all its positions moved. -/
def Run.moved (distance : Int) (run : Run α) : Run α :=
  ⟨run.events.map (Event.moved distance), run.outcome.moved distance⟩

@[simp]
theorem Event.map_moved_forLabel (distance : Int) {event : String → Event}
    (hevent : ∀ label, (event label).moved distance = event label) (label : Option String) :
    (forLabel event label).map (moved distance) = forLabel event label := by
  cases label with
  | none => rfl
  | some label => simp [forLabel, hevent]

theorem Event.moved_zero (event : Event) : event.moved 0 = event := by
  cases event with
  | ran tag start stop => cases stop <;> simp [moved]
  | started | finished | closed => rfl

theorem Run.moved_zero (run : Run α) : run.moved 0 = run := by
  have hevents : run.events.map (Event.moved 0) = run.events := by
    simp [funext Event.moved_zero]
  have houtcome : run.outcome.moved 0 = run.outcome := by
    cases run.outcome <;> simp [Outcome.moved]
  rw [moved, hevents, houtcome]

/-! ## The comparison -/

/-- Two texts that are alike from `start` on, at a distance from each other, the faults that a run
may raise, and the ways to end that excuse it from being compared. -/
structure Comparison where
  text : Text
  other : Text
  distance : Int
  start : Int
  allows : Fault → Prop
  excuses : Fault → Prop
  excusesEndless : Prop
  size_other : (other.size : Int) = text.size + distance
  charAt?_other : ∀ position, text.Reaches start position →
    other.charAt? (position + distance) = text.charAt? position

namespace Comparison

variable (c : Comparison)

def Excuses (run : Run α) : Prop :=
  (∃ fault, run.outcome = .raised fault ∧ c.excuses fault) ∨
    run.outcome = .endless ∧ c.excusesEndless

/-- What is known of a run from the position that is not excused. -/
structure Admits (position : Int) (run : Run α) : Prop where
  reaches : ∀ value stop, run.outcome = .success value stop → c.text.Reaches position stop
  allows : ∀ fault, run.outcome = .raised fault → c.allows fault

/-- The runs compare, where the first one started at the position. -/
def Relates (position : Int) (run run' : Run α) : Prop :=
  c.Excuses run ∨ run' = run.moved c.distance ∧ c.Admits position run

/-- The runs of two matchers compare wherever the texts are alike. -/
def RelatesMatchers (matcher matcher' : Matcher α) : Prop :=
  ∀ position, c.text.Reaches c.start position →
    c.Relates position (matcher position) (matcher' (position + c.distance))

theorem remaining_other (position : Int) :
    c.other.remaining (position + c.distance) = c.text.remaining position := by
  have := c.size_other
  unfold Text.remaining
  congr 1
  omega

variable {c} {position middle stop : Int} {value : α} {fault : Fault} {run run' : Run α}

/-! ## Runs -/

theorem relates_succeeded (hstop : c.text.Reaches position stop) :
    c.Relates position (.succeeded value stop) (.succeeded value (stop + c.distance)) := by
  refine .inr ⟨rfl, fun other stop' hother ↦ ?_, nofun⟩
  obtain ⟨-, rfl⟩ := Outcome.success.inj hother
  exact hstop

theorem relates_failed : c.Relates position (.failed : Run α) .failed :=
  .inr ⟨rfl, nofun, nofun⟩

theorem relates_raised (hfault : c.allows fault) :
    c.Relates position (.raised fault : Run α) (.raised fault) := by
  refine .inr ⟨rfl, nofun, fun other hraised ↦ ?_⟩
  rwa [← Outcome.raised.inj hraised]

theorem relates_endless : c.Relates position (.endless : Run α) .endless :=
  .inr ⟨rfl, nofun, nofun⟩

theorem relates_of_excused (hfault : c.excuses fault) : c.Relates position (.raised fault) run' :=
  .inl (.inl ⟨fault, rfl, hfault⟩)

theorem relates_ofExcept {result : Except Fault α} (hstop : c.text.Reaches position stop)
    (hresult : ∀ fault, result = .error fault → c.allows fault) :
    c.Relates position (.ofExcept result stop) (.ofExcept result (stop + c.distance)) := by
  cases result with
  | ok value => exact relates_succeeded hstop
  | error fault => exact relates_raised (hresult fault rfl)

theorem Relates.after (hrun : c.Relates position run run') (events : List Event) :
    c.Relates position (.after events run)
      (.after (events.map (Event.moved c.distance)) run') := by
  obtain hexcused | ⟨rfl, hreaches, hallows⟩ := hrun
  · exact .inl hexcused
  · exact .inr ⟨by simp [Run.after, Run.moved], hreaches, hallows⟩

/-- A run goes on from where its first part stopped, or from where it was. -/
theorem Relates.branch {onSuccess onSuccess' : α → Int → Run β}
    {onFailure onFailure' : Unit → Run β} (hrun : c.Relates middle run run')
    (hsuccess : ∀ value stop, run.outcome = .success value stop → c.text.Reaches middle stop →
      c.Relates position (onSuccess value stop) (onSuccess' value (stop + c.distance)))
    (hfailure : c.Relates position (onFailure ()) (onFailure' ())) :
    c.Relates position (run.branch onSuccess onFailure) (run'.branch onSuccess' onFailure') := by
  obtain (⟨fault, houtcome, hfault⟩ | ⟨houtcome, hendless⟩) | ⟨rfl, hreaches, hallows⟩ := hrun
  · exact .inl (.inl ⟨fault, by simp [Run.branch, houtcome, Run.after, Run.raised], hfault⟩)
  · exact .inl (.inr ⟨by simp [Run.branch, houtcome, Run.after, Run.endless], hendless⟩)
  obtain ⟨events, outcome⟩ := run
  cases outcome with
  | success value stop => exact (hsuccess value stop rfl (hreaches value stop rfl)).after events
  | failure => exact hfailure.after events
  | raised fault => exact (relates_raised (hallows fault rfl)).after events
  | endless => exact relates_endless.after events

theorem Relates.andThen_of_success {next next' : α → Int → Run β}
    (hrun : c.Relates middle run run')
    (hnext : ∀ value stop, run.outcome = .success value stop → c.text.Reaches middle stop →
      c.Relates position (next value stop) (next' value (stop + c.distance))) :
    c.Relates position (run.andThen next) (run'.andThen next') :=
  hrun.branch hnext relates_failed

theorem Relates.andThen {next next' : α → Int → Run β} (hrun : c.Relates middle run run')
    (hnext : ∀ value stop, c.text.Reaches middle stop →
      c.Relates position (next value stop) (next' value (stop + c.distance))) :
    c.Relates position (run.andThen next) (run'.andThen next') :=
  hrun.andThen_of_success fun value stop _ hstop ↦ hnext value stop hstop

theorem Relates.orElse {next next' : Unit → Run α} (hrun : c.Relates position run run')
    (hnext : c.Relates position (next ()) (next' ())) :
    c.Relates position (run.orElse next) (run'.orElse next') :=
  hrun.branch (fun _ _ _ hstop ↦ relates_succeeded hstop) hnext

theorem Relates.reach (hrun : c.Relates middle run run')
    (hmiddle : c.text.Reaches position middle) : c.Relates position run run' := by
  refine hrun.imp_right fun ⟨hmoved, hreaches, hallows⟩ ↦ ⟨hmoved, fun value stop hstop ↦ ?_,
    hallows⟩
  exact hmiddle.trans (hreaches value stop hstop)

theorem Relates.marked {ifSucceeded ifSucceeded' : Int → Event} {ifFailed ifFailed' : Event}
    (hrun : c.Relates position run run')
    (hsucceeded : ∀ stop, ifSucceeded' (stop + c.distance) = (ifSucceeded stop).moved c.distance)
    (hfailed : ifFailed' = ifFailed.moved c.distance) :
    c.Relates position (run.marked ifSucceeded ifFailed) (run'.marked ifSucceeded' ifFailed') := by
  have houtcome (run : Run α) (ifSucceeded : Int → Event) (ifFailed : Event) :
      (run.marked ifSucceeded ifFailed).outcome = run.outcome := by
    obtain ⟨events, _ | _ | _ | _⟩ := run <;> rfl
  refine hrun.imp (fun hexcused ↦ ?_) fun ⟨hmoved, hreaches, hallows⟩ ↦ ⟨?_, ?_, ?_⟩
  · rwa [Excuses, houtcome]
  · obtain ⟨events, _ | _ | _ | _⟩ := run <;>
      simp [hmoved, Run.marked, Run.moved, Outcome.moved, hsucceeded, hfailed]
  · rwa [houtcome]
  · rwa [houtcome]

theorem Relates.closedBy {events : List Event} (hrun : c.Relates position run run')
    (hevents : events.map (Event.moved c.distance) = events) :
    c.Relates position (run.closedBy events) (run'.closedBy events) := by
  have houtcome (run : Run α) : (run.closedBy events).outcome = run.outcome := by
    obtain ⟨before, _ | _ | _ | _⟩ := run <;> rfl
  refine hrun.imp (fun hexcused ↦ ?_) fun ⟨hmoved, hreaches, hallows⟩ ↦ ⟨?_, ?_, ?_⟩
  · rwa [Excuses, houtcome]
  · obtain ⟨before, _ | _ | _ | _⟩ := run <;>
      simp [hmoved, Run.closedBy, Run.moved, Outcome.moved, hevents]
  · rwa [houtcome]
  · rwa [houtcome]

/-! ## Matchers -/

section Matchers

variable {first first' : Matcher α} {second second' : Matcher β} {third third' : Matcher γ}

theorem relates_satisfy (accepts : Char → Bool) :
    c.RelatesMatchers (.satisfy c.text accepts) (.satisfy c.other accepts) := by
  intro position hposition
  rw [Matcher.satisfy, Matcher.satisfy, c.charAt?_other position hposition]
  cases hd : c.text.charAt? position with
  | none => exact relates_failed
  | some d =>
    have hnext : c.Relates position (.succeeded d (position + 1))
        (.succeeded d (position + c.distance + 1)) := by
      rw [Int.add_right_comm]
      exact relates_succeeded (Text.reaches_succ hd)
    cases haccepts : accepts d with
    | false => simpa [haccepts] using relates_failed
    | true => simpa [haccepts] using hnext

/-- Any character satisfies what is always true. -/
theorem relates_item : c.RelatesMatchers (.item c.text) (.item c.other) :=
  relates_satisfy fun _ ↦ true

theorem RelatesMatchers.bind {next next' : α → Matcher β} (hfirst : c.RelatesMatchers first first')
    (hnext : ∀ value, c.RelatesMatchers (next value) (next' value)) :
    c.RelatesMatchers (.bind first next) (.bind first' next') := by
  intro position hposition
  refine (hfirst position hposition).andThen fun value middle hmiddle ↦ ?_
  exact (hnext value middle (hposition.trans hmiddle)).reach hmiddle

/-- Only the faults of values that the first run succeeds with can be raised. -/
theorem RelatesMatchers.convert_of_success {f : α → Except Fault β}
    (hfirst : c.RelatesMatchers first first')
    (hf : ∀ position value stop fault, c.text.Reaches c.start position →
      (first position).outcome = .success value stop → f value = .error fault → c.allows fault) :
    c.RelatesMatchers (.convert first f) (.convert first' f) := by
  intro position hposition
  exact (hfirst position hposition).andThen_of_success fun value stop hrun hstop ↦
    relates_ofExcept hstop fun fault ↦ hf position value stop fault hposition hrun

theorem RelatesMatchers.convert {f : α → Except Fault β} (hfirst : c.RelatesMatchers first first')
    (hf : ∀ value fault, f value = .error fault → c.allows fault) :
    c.RelatesMatchers (.convert first f) (.convert first' f) :=
  hfirst.convert_of_success fun _ value _ fault _ _ ↦ hf value fault

theorem RelatesMatchers.map (hfirst : c.RelatesMatchers first first') (f : α → β) :
    c.RelatesMatchers (.convert first fun value ↦ .ok (f value))
      (.convert first' fun value ↦ .ok (f value)) :=
  hfirst.convert nofun

theorem relates_firstOf {count : Nat} {alternatives alternatives' : Fin count → Matcher α}
    (halternatives : ∀ index, c.RelatesMatchers (alternatives index) (alternatives' index)) :
    c.RelatesMatchers (.firstOf count alternatives) (.firstOf count alternatives') := by
  induction count with
  | zero => exact fun _ _ ↦ relates_failed
  | succ count ih =>
    intro position hposition
    have hothers := ih (fun index ↦ halternatives index.succ) position hposition
    exact (halternatives 0 position hposition).orElse hothers

/-! The other ways to put two matchers one after another are bindings of a special form. -/

theorem RelatesMatchers.keepRight (hfirst : c.RelatesMatchers first first')
    (hsecond : c.RelatesMatchers second second') :
    c.RelatesMatchers (.keepRight first second) (.keepRight first' second') :=
  hfirst.bind fun _ ↦ hsecond

theorem RelatesMatchers.keepLeft (hfirst : c.RelatesMatchers first first')
    (hsecond : c.RelatesMatchers second second') :
    c.RelatesMatchers (.keepLeft first second) (.keepLeft first' second') :=
  hfirst.bind fun value ↦ hsecond.map fun _ ↦ value

theorem RelatesMatchers.pair (hfirst : c.RelatesMatchers first first')
    (hsecond : c.RelatesMatchers second second') :
    c.RelatesMatchers (.pair first second) (.pair first' second') :=
  hfirst.bind fun value ↦ hsecond.map fun other ↦ (value, other)

theorem RelatesMatchers.between (hfirst : c.RelatesMatchers first first')
    (hsecond : c.RelatesMatchers second second') (hthird : c.RelatesMatchers third third') :
    c.RelatesMatchers (.between first second third) (.between first' second' third') :=
  hfirst.bind fun _ ↦ hsecond.keepLeft hthird

/-! Repetitions and chains have a budget, which is the same on both sides. -/

theorem RelatesMatchers.round {rest rest' : Matcher (List α)}
    (hfirst : c.RelatesMatchers first first') (hrest : c.RelatesMatchers rest rest') :
    c.RelatesMatchers (.round first rest) (.round first' rest') := by
  intro position hposition
  apply (hfirst position hposition).branch
  · intro value next _ hnext
    refine ((hrest next (hposition.trans hnext)).reach hnext).andThen fun values stop hstop ↦ ?_
    exact relates_succeeded hstop
  · exact relates_succeeded .refl

theorem RelatesMatchers.rounds (hfirst : c.RelatesMatchers first first') (count : Nat) :
    c.RelatesMatchers (.rounds first count) (.rounds first' count) := by
  induction count with
  | zero => exact hfirst.round fun _ _ ↦ relates_endless
  | succ count ih => exact hfirst.round ih

theorem RelatesMatchers.many (hfirst : c.RelatesMatchers first first') :
    c.RelatesMatchers (.many c.text first) (.many c.other first') := by
  intro position hposition
  rw [Matcher.many, Matcher.many, c.remaining_other]
  exact hfirst.rounds _ position hposition

theorem RelatesMatchers.many1 (hfirst : c.RelatesMatchers first first') :
    c.RelatesMatchers (.many1 c.text first) (.many1 c.other first') :=
  hfirst.bind fun head ↦ hfirst.many.map fun tail ↦ head :: tail

section Chains

variable {operator operator' : Matcher (α → α → Except Fault α)}

/-- The faults of the functions that the operator yields are allowed. -/
def AllowsOperator (c : Comparison) (operator : Matcher (α → α → Except Fault α)) : Prop :=
  ∀ position combine stop, (operator position).outcome = .success combine stop →
    ∀ left right fault, combine left right = .error fault → c.allows fault

theorem RelatesMatchers.link {accumulator : α} {rest rest' : α → Matcher α}
    (hfirst : c.RelatesMatchers first first') (hoperator : c.RelatesMatchers operator operator')
    (hcombine : c.AllowsOperator operator)
    (hrest : ∀ value, c.RelatesMatchers (rest value) (rest' value)) :
    c.RelatesMatchers (.link first operator accumulator rest)
      (.link first' operator' accumulator rest') := by
  intro position hposition
  have hdone : c.Relates position (.succeeded accumulator position)
    (.succeeded accumulator (position + c.distance)) := relates_succeeded .refl
  refine (hoperator position hposition).branch (fun combine next hyields hnext ↦ ?_) hdone
  refine (hfirst next (hposition.trans hnext)).branch (fun operand stop _ hstop ↦ ?_) hdone
  refine (relates_ofExcept .refl ?_).andThen fun value late hlate ↦ ?_
  · exact hcombine position combine next hyields accumulator operand
  · have hreached := (hnext.trans hstop).trans hlate
    exact (hrest value late (hposition.trans hreached)).reach hreached

theorem RelatesMatchers.links (hfirst : c.RelatesMatchers first first')
    (hoperator : c.RelatesMatchers operator operator') (hcombine : c.AllowsOperator operator)
    (count : Nat) (accumulator : α) :
    c.RelatesMatchers (.links first operator count accumulator)
      (.links first' operator' count accumulator) := by
  induction count generalizing accumulator with
  | zero => exact hfirst.link hoperator hcombine fun _ _ _ ↦ relates_endless
  | succ count ih => exact hfirst.link hoperator hcombine ih

theorem RelatesMatchers.chainLeft (hfirst : c.RelatesMatchers first first')
    (hoperator : c.RelatesMatchers operator operator') (hcombine : c.AllowsOperator operator) :
    c.RelatesMatchers (.chainLeft c.text first operator)
      (.chainLeft c.other first' operator') := by
  intro position hposition
  refine (hfirst position hposition).andThen fun value next hnext ↦ ?_
  rw [c.remaining_other]
  exact (hfirst.links hoperator hcombine _ value next (hposition.trans hnext)).reach hnext

end Chains

theorem RelatesMatchers.trace (hfirst : c.RelatesMatchers first first') (tag : String) :
    c.RelatesMatchers (.trace tag first) (.trace tag first') :=
  fun position hposition ↦ (hfirst position hposition).marked (fun _ ↦ rfl) rfl

theorem RelatesMatchers.step {next next' : α → Matcher β} (hfirst : c.RelatesMatchers first first')
    (hnext : ∀ value, c.RelatesMatchers (next value) (next' value)) (label : Option String) :
    c.RelatesMatchers (.step label first next) (.step label first' next') := by
  have hclosed : (Event.forLabel .closed label).map (Event.moved c.distance) =
    Event.forLabel .closed label := Event.map_moved_forLabel _ (fun _ ↦ rfl) label
  intro position hposition
  refine ((hfirst position hposition).closedBy hclosed).andThen fun value middle hmiddle ↦ ?_
  exact (hnext value middle (hposition.trans hmiddle)).reach hmiddle

theorem relates_finish (label : Option String) {result : Except Fault α}
    (hresult : ∀ fault, result = .error fault → c.allows fault) :
    c.RelatesMatchers (.finish label result) (.finish label result) := by
  intro position _
  have hrelates : c.Relates position (Matcher.finish label result position) _ :=
    (relates_ofExcept .refl hresult).after (Event.forLabel .finished label)
  rwa [Event.map_moved_forLabel _ (fun _ ↦ rfl)] at hrelates

theorem RelatesMatchers.sequence (hfirst : c.RelatesMatchers first first')
    (label : Option String) :
    c.RelatesMatchers (.sequence label first) (.sequence label first') := by
  intro position hposition
  have hrelates := (hfirst position hposition).after (Event.forLabel .started label)
  rwa [Event.map_moved_forLabel _ (fun _ ↦ rfl)] at hrelates

end Matchers

/-! ## Rules -/

/-- A larger depth changes only runs that were endless. -/
theorem relates_resolve {rules rules' : (κ → Matcher ρ) → κ → Matcher ρ} {depth depth' : Nat}
    {known : κ → Prop}
    (hrules : ∀ inner inner', (∀ name, known name → c.RelatesMatchers (inner name) (inner' name)) →
      ∀ name, known name → c.RelatesMatchers (rules inner name) (rules' inner' name))
    (hdepth : depth = depth' ∨ c.excusesEndless ∧ depth ≤ depth') {name : κ} (hname : known name) :
    c.RelatesMatchers (.resolve rules depth name) (.resolve rules' depth' name) := by
  induction depth generalizing depth' name with
  | zero =>
    obtain rfl | ⟨hendless, -⟩ := hdepth
    · exact fun _ _ ↦ relates_endless
    · exact fun _ _ ↦ .inl (.inr ⟨rfl, hendless⟩)
  | succ depth ih =>
    obtain ⟨depth', rfl⟩ : ∃ inner, depth' = inner + 1 := ⟨depth' - 1, by omega⟩
    have hinner : depth = depth' ∨ c.excusesEndless ∧ depth ≤ depth' :=
      hdepth.imp Nat.succ.inj fun ⟨hendless, hle⟩ ↦ ⟨hendless, Nat.le_of_succ_le_succ hle⟩
    exact hrules _ _ (fun other hother ↦ ih hinner hother) name hname

theorem relates_recursive {rule rule' : (Unit → Matcher ρ) → Matcher ρ}
    (hrule : ∀ inner inner', (∀ name, c.RelatesMatchers (inner name) (inner' name)) →
      c.RelatesMatchers (rule inner) (rule' inner')) :
    c.RelatesMatchers (.recursive c.text rule) (.recursive c.other rule') := by
  intro position hposition
  rw [Matcher.recursive, Matcher.recursive, c.remaining_other]
  have hrules := fun (inner inner' : Unit → Matcher ρ)
    (hinner : ∀ name, True → c.RelatesMatchers (inner name) (inner' name)) (_ : Unit) (_ : True) ↦
      hrule inner inner' fun name ↦ hinner name trivial
  exact relates_resolve hrules (.inl rfl) trivial position hposition

end Comparison

/-! ## Parsers -/

/-- What the runs of a parser can depend on besides their text. -/
inductive Source (κ : Type)
  | rule (name : κ)
  | fault (fault : Fault)

/-- Some run of the parser succeeds with the value. -/
def Parser.Yields (parser : Parser κ ρ α) (value : α) : Prop :=
  ∃ text rules position stop, (parser.matcher text rules position).outcome = .success value stop

mutual

/-- The parser refers to the rule, or can raise the fault by itself. -/
def Parser.DrawsOn : {κ ρ α : Type} → Parser κ ρ α → Source κ → Prop
  | _, _, _, .item, _ => False
  | _, _, _, .succeed _, _ => False
  | _, _, _, .fail, _ => False
  | _, _, _, .raise fault, source => source = .fault fault
  | _, _, _, .satisfy _, _ => False
  | _, _, _, .bind first next, source =>
    first.DrawsOn source ∨ ∃ value, (next value).DrawsOn source
  | _, _, _, .convert first f, source =>
    first.DrawsOn source ∨ ∃ value fault, f value = .error fault ∧ source = .fault fault
  | _, _, _, .choice _ alternatives, source => ∃ index, (alternatives index).DrawsOn source
  | _, _, _, .keepRight first second, source => first.DrawsOn source ∨ second.DrawsOn source
  | _, _, _, .keepLeft first second, source => first.DrawsOn source ∨ second.DrawsOn source
  | _, _, _, .pair first second, source => first.DrawsOn source ∨ second.DrawsOn source
  | _, _, _, .between opening inner closing, source =>
    opening.DrawsOn source ∨ inner.DrawsOn source ∨ closing.DrawsOn source
  | _, _, _, .many inner, source => inner.DrawsOn source
  | _, _, _, .many1 inner, source => inner.DrawsOn source
  | _, _, _, .chainLeft term operator, source =>
    term.DrawsOn source ∨ operator.DrawsOn source ∨
      ∃ combine left right fault, operator.Yields combine ∧ combine left right = .error fault ∧
        source = .fault fault
  | _, _, _, .sequence _ script, source => script.DrawsOn source
  | _, _, _, .trace _ inner, source => inner.DrawsOn source
  | _, _, _, .forwarding name, source => source = .rule name
  | _, _, _, .recursive rule, source => ∃ fault, rule.DrawsOn (.fault fault) ∧ source = .fault fault

def Script.DrawsOn : {κ ρ α : Type} → Script κ ρ α → Source κ → Prop
  | _, _, _, .finish value, source => ∃ fault, value = .error fault ∧ source = .fault fault
  | _, _, _, .raise fault, source => source = .fault fault
  | _, _, _, .step first next, source =>
    first.DrawsOn source ∨ ∃ value, (next value).DrawsOn source

end

/-- The rules behind a source compare, or its fault is allowed. -/
def Comparison.Accepts (c : Comparison) (rules rules' : κ → Matcher ρ) : Source κ → Prop
  | .rule name => c.RelatesMatchers (rules name) (rules' name)
  | .fault fault => c.allows fault

mutual

/-- A parser compares if all does that it draws on. -/
theorem Comparison.relates_of_accepts (c : Comparison) : {κ ρ α : Type} →
    (parser : Parser κ ρ α) → {rules rules' : κ → Matcher ρ} →
    (∀ source, parser.DrawsOn source → c.Accepts rules rules' source) →
    c.RelatesMatchers (parser.matcher c.text rules) (parser.matcher c.other rules')
  | _, _, _, .item, _, _, _ => relates_item
  | _, _, _, .succeed _, _, _, _ => fun _ _ ↦ relates_succeeded .refl
  | _, _, _, .fail, _, _, _ => fun _ _ ↦ relates_failed
  | _, _, _, .raise _, _, _, haccepts => fun _ _ ↦ relates_raised (haccepts _ rfl)
  | _, _, _, .satisfy accepts, _, _, _ => relates_satisfy accepts
  | _, _, _, .bind first next, _, _, haccepts =>
    (c.relates_of_accepts first fun _ hsource ↦ haccepts _ (.inl hsource)).bind fun value ↦
      c.relates_of_accepts (next value) fun _ hsource ↦ haccepts _ (.inr ⟨value, hsource⟩)
  | _, _, _, .convert first _, _, _, haccepts =>
    (c.relates_of_accepts first fun _ hsource ↦ haccepts _ (.inl hsource)).convert
      fun value fault herror ↦ haccepts _ (.inr ⟨value, fault, herror, rfl⟩)
  | _, _, _, .choice _ alternatives, _, _, haccepts =>
    relates_firstOf fun index ↦
      c.relates_of_accepts (alternatives index) fun _ hsource ↦ haccepts _ ⟨index, hsource⟩
  | _, _, _, .keepRight first second, _, _, haccepts =>
    (c.relates_of_accepts first fun _ hsource ↦ haccepts _ (.inl hsource)).keepRight
      (c.relates_of_accepts second fun _ hsource ↦ haccepts _ (.inr hsource))
  | _, _, _, .keepLeft first second, _, _, haccepts =>
    (c.relates_of_accepts first fun _ hsource ↦ haccepts _ (.inl hsource)).keepLeft
      (c.relates_of_accepts second fun _ hsource ↦ haccepts _ (.inr hsource))
  | _, _, _, .pair first second, _, _, haccepts =>
    (c.relates_of_accepts first fun _ hsource ↦ haccepts _ (.inl hsource)).pair
      (c.relates_of_accepts second fun _ hsource ↦ haccepts _ (.inr hsource))
  | _, _, _, .between opening inner closing, _, _, haccepts =>
    (c.relates_of_accepts opening fun _ hsource ↦ haccepts _ (.inl hsource)).between
      (c.relates_of_accepts inner fun _ hsource ↦ haccepts _ (.inr (.inl hsource)))
      (c.relates_of_accepts closing fun _ hsource ↦ haccepts _ (.inr (.inr hsource)))
  | _, _, _, .many inner, _, _, haccepts => (c.relates_of_accepts inner haccepts).many
  | _, _, _, .many1 inner, _, _, haccepts => (c.relates_of_accepts inner haccepts).many1
  | _, _, _, .chainLeft term operator, _, _, haccepts =>
    (c.relates_of_accepts term fun _ hsource ↦ haccepts _ (.inl hsource)).chainLeft
      (c.relates_of_accepts operator fun _ hsource ↦ haccepts _ (.inr (.inl hsource)))
      fun position combine stop hyields left right fault herror ↦ haccepts _ (.inr (.inr
        ⟨combine, left, right, fault, ⟨c.text, _, position, stop, hyields⟩, herror, rfl⟩))
  | _, _, _, .sequence label script, _, _, haccepts =>
    (c.relates_steps script label haccepts).sequence label
  | _, _, _, .trace tag inner, _, _, haccepts => (c.relates_of_accepts inner haccepts).trace tag
  | _, _, _, .forwarding _, _, _, haccepts => haccepts _ rfl
  | _, _, _, .recursive rule, _, _, haccepts =>
    relates_recursive fun _ _ hinner ↦ c.relates_of_accepts rule fun
      | .rule name, _ => hinner name
      | .fault fault, hfault => haccepts _ ⟨fault, hfault, rfl⟩

theorem Comparison.relates_steps (c : Comparison) : {κ ρ α : Type} → (script : Script κ ρ α) →
    (label : Option String) → {rules rules' : κ → Matcher ρ} →
    (∀ source, script.DrawsOn source → c.Accepts rules rules' source) →
    c.RelatesMatchers (script.matcher c.text label rules) (script.matcher c.other label rules')
  | _, _, _, .finish _, label, _, _, haccepts =>
    relates_finish label fun fault herror ↦ haccepts _ ⟨fault, herror, rfl⟩
  | _, _, _, .raise _, _, _, _, haccepts => fun _ _ ↦ relates_raised (haccepts _ rfl)
  | _, _, _, .step first next, label, _, _, haccepts =>
    (c.relates_of_accepts first fun _ hsource ↦ haccepts _ (.inl hsource)).step
      (fun value ↦ c.relates_steps (next value) label fun _ hsource ↦
        haccepts _ (.inr ⟨value, hsource⟩)) label

end

end ParserCombinators
