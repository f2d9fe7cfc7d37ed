import ParserCombinators.Proofs.Json.NumberText
import ParserCombinators.Proofs.Json.Soundness
import ParserCombinators.Proofs.Json.Termination
import ParserCombinators.Proofs.Parser.Raising
import ParserCombinators.Proofs.Parser.Renaming

/-!
# The faults of reading JSON

Many steps of reading are partial: words and escapes are looked up, digits are converted, and a rule
is entered that was defined later. What the parsers read before such a step lets it succeed, at any
depth. The exception is an integer with too many digits. Otherwise parsing gives a value, or it says
that the text is no JSON.
-/

namespace ParserCombinators.Json

open Character Comparison
open ParserCombinators.Parser

variable {κ ρ α β : Type} {text : Text} {allows : Fault → Prop} {rules : κ → Matcher ρ}

/-! ## The parts of the grammar -/

theorem raisesOnly_punctuation (c : Char) :
    (punctuation c : Parser κ ρ Unit).RaisesOnly text rules allows :=
  raisesOnly_of_respects fun _ hleft ↦ respects_punctuation hleft c

theorem raisesOnly_string : (string : Parser κ ρ CodePoints).RaisesOnly text rules allows :=
  raisesOnly_of_respects fun _ hleft ↦ respects_string hleft

theorem raisesOnly_reserved {word : String} {value : Value} (hword : Word word value) :
    (reserved word : Parser κ ρ Value).RaisesOnly text rules allows :=
  raisesOnly_of_respects fun _ hleft ↦ respects_reserved hleft hword

/-- Somewhere in the text are too many digits for an integer, and the fault tells how many. -/
def IsLimitFault (text : Text) (fault : Fault) : Prop :=
  ∃ run, run <:+: text.toList ∧ (∀ c ∈ run, isDigit c = true) ∧ 4300 < run.length ∧
    fault = .numeralTooLong run.length

theorem raisesOnly_number :
    (number : Parser κ ρ Number).RaisesOnly text rules (IsLimitFault text) := by
  have htext : (numberText : Parser κ ρ (List Char)).RaisesOnly text rules (IsLimitFault text) :=
    raisesOnly_of_respects fun _ hleft ↦ respects_numberText hleft
  have hvalue : (Parser.convert numberText numberValue : Parser κ ρ Number).RaisesOnly text rules
      (IsLimitFault text) := by
    refine htext.convert_of_success fun position slice stop fault _ hrun herror ↦ ?_
    obtain ⟨numeral, rest, rfl, hleft, -⟩ := exists_numeral_of_success hrun
    have hwhole : numeral.whole <:+: text.toList :=
      (numeral.whole_infix.trans (List.prefix_append _ rest).isInfix).trans hleft.isInfix
    by_cases hshort : numeral.IsShort
    · rw [numeral.numberValue_text hshort] at herror
      cases herror
    · obtain ⟨hlong, hfault⟩ := numeral.numberValue_text_of_long hshort
      rw [hfault] at herror
      exact ⟨numeral.whole, hwhole, numeral.whole_isRun.accepted, hlong,
        (Except.error.inj herror).symm⟩
  exact hvalue.keepLeft raisesOnly_blanks

theorem raisesOnly_separatedBy {item : Parser κ ρ α} {separator : Parser κ ρ β}
    (hitem : item.RaisesOnly text rules allows)
    (hseparator : separator.RaisesOnly text rules allows) :
    (separatedBy item separator).RaisesOnly text rules allows := by
  have hfurther := (hseparator.keepRight hitem).many
  have hfinish (first : α) (rest : List α) : (allowing text 0 allows).RelatesMatchers
      (.finish none (.ok (first :: rest))) (.finish none (.ok (first :: rest))) :=
    relates_finish none nofun
  have hseveral : (Parser.sequence none <| .step item fun first ↦
      .step (.many (.keepRight separator item)) fun rest ↦
      .finish (.ok (first :: rest))).RaisesOnly text rules allows :=
    (hitem.step (fun first ↦ hfurther.step (hfinish first) none) none).sequence none
  exact raisesOnly_orElse hseveral fun _ _ ↦ relates_succeeded .refl

/-- Arrays and objects, if their items raise allowed faults only. -/
theorem raisesOnly_brackets {item : Parser κ ρ α} (hitem : item.RaisesOnly text rules allows)
    (opening closing : Char) :
    (Parser.between (punctuation opening) (separatedBy item (punctuation ','))
      (punctuation closing)).RaisesOnly text rules allows :=
  (raisesOnly_punctuation opening).between
    (raisesOnly_separatedBy hitem (raisesOnly_punctuation ',')) (raisesOnly_punctuation closing)

theorem raisesOnly_valueRule {rules : Unit → Matcher Value}
    (hinner : (forwarding ()).RaisesOnly text rules (IsLimitFault text)) :
    valueRule.RaisesOnly text rules (IsLimitFault text) := by
  have hmember : (member (.forwarding ())).RaisesOnly text rules (IsLimitFault text) :=
    (raisesOnly_string.keepLeft (raisesOnly_punctuation ':')).pair hinner
  apply raisesOnly_firstOf
  simp only [List.forall_mem_cons]
  exact ⟨raisesOnly_string.map _, raisesOnly_number.map _,
    ((raisesOnly_brackets hmember _ _).map _).map _, (raisesOnly_brackets hinner _ _).map _,
    raisesOnly_reserved .true, raisesOnly_reserved .false, raisesOnly_reserved .null, nofun⟩

theorem raisesOnly_document :
    (document : Parser κ ρ Value).RaisesOnly text rules (IsLimitFault text) :=
  raisesOnly_blanks.keepRight (raisesOnly_recursive fun _ ↦ raisesOnly_valueRule)

/-! ## How parsing ends -/

/-- How a run on the text ends, and what parsing makes of it. -/
inductive Ending (text : Text) : Outcome Value → Except Fault Value → Prop
  | value (value : Value) (stop : Int) : Ending text (.success value stop) (.ok value)
  | notJson :
      Ending text .failure (.error (.notJson (String.ofList (text.toList.take 20))))
  | limit {fault : Fault} :
      IsLimitFault text fault → Ending text (.raised fault) (.error fault)

theorem ending_parse (text : Text) : Ending text (document.run text).outcome (parse text) := by
  have hruns : (document : Parser Empty Empty Value).RaisesOnly text Empty.elim _ :=
    raisesOnly_document
  have hpasses : (document : Parser Empty Empty Value).Passes ⟨text, Empty.elim, isOpening, 0⟩
      false 0 := passes_document rfl 0
  have hends := (hpasses 0 le_rfl).ends.ends
  rw [parse]
  cases houtcome : (document.run text).outcome with
  | success value stop => exact .value value stop
  | failure => exact .notJson
  | raised fault => exact .limit (hruns.admits.allows fault houtcome)
  | endless => exact absurd houtcome hends

theorem Ending.notJson_of_error {outcome : Outcome Value} {fault : Fault}
    (hending : Ending text outcome (.error fault)) (hruns : HasShortRuns text.toList) :
    fault = .notJson (String.ofList (text.toList.take 20)) := by
  cases hending with
  | notJson => rfl
  | limit hlimit =>
    obtain ⟨run, hrun, hdigits, hlong, -⟩ := hlimit
    exact absurd (hruns run hrun hdigits) (Nat.not_le.2 hlong)

/-- The grammar raises nothing more when its rule for a value stands in a cell. -/
theorem runAt_withRule_document (cells : Cells Value) (label : Option String) (text : Text) :
    (cells.withRule label valueRule).runAt (.skipBlanks (.forwarding (cells.forward label).1))
      text 0 = document.run text := by
  refine Run.andThen_congr rfl fun gap start hblanks ↦ ?_
  have hruns : (blanks : Parser Empty Empty (List Char)).RaisesOnly text Empty.elim fun _ ↦ True :=
    raisesOnly_blanks
  have hstart := hruns.admits.reaches gap start hblanks
  have hremaining : text.remaining start ≤ text.remaining 0 := by
    have hle := hstart.le
    unfold Text.remaining
    omega
  -- The depth of the cells is that of the start, which is more than is needed behind the blanks.
  have hsame : (cells.withRule label valueRule).level text
      ((cells.withRule label valueRule).depth text 0) (cells.forward label).1 start =
        valueRule.entered text () start := by
    rw [Cells.level_withRule]
    exact isGuarded_valueRule.nested_eq_of_remaining
      (hremaining.trans_lt (Cells.remaining_lt_depth ..))
  exact hsame

/-- Parsing gives a value or says that the text is no JSON, unless an integer is too long. -/
theorem parse_ends (text : Text) :
    Ending text (document.run text).outcome (parse text) ∧
    (HasShortRuns text.toList → ∀ fault, parse text = .error fault →
      fault = .notJson (String.ofList (text.toList.take 20)) ∧
        fault.message = some (.ofString "Not JSON")) ∧
    ∀ (cells : Cells Value) (label : Option String),
      (cells.withRule label valueRule).runAt (.skipBlanks (.forwarding (cells.forward label).1))
        text 0 = document.run text := by
  have hending := ending_parse text
  refine ⟨hending, fun hruns fault hfault ↦ ?_, fun cells label ↦
    runAt_withRule_document cells label text⟩
  rw [hfault] at hending
  obtain rfl := hending.notJson_of_error hruns
  exact ⟨rfl, rfl⟩

/-- The escape is cut short, and only the start of the text is shown. -/
theorem parse_of_truncated_escape :
    parse #['[', 'n', 'u', 'l', 'l', ',', '\x22', 'a', 'b', 'c', 'd', 'e', 'f', 'g', 'h', 'i', 'j',
        'k', 'l', '\\', 'u', '0', '0', '6', '\x22', ']'] =
      .error (.notJson "[null,\x22abcdefghijkl\\") ∧
    (Fault.notJson "[null,\x22abcdefghijkl\\").message = some (.ofString "Not JSON") := by
  have hparse : parse #['[', 'n', 'u', 'l', 'l', ',', '\x22', 'a', 'b', 'c', 'd', 'e', 'f', 'g',
      'h', 'i', 'j', 'k', 'l', '\\', 'u', '0', '0', '6', '\x22', ']'] =
      .error (.notJson "[null,\x22abcdefghijkl\\") := by rfl
  have hmessage := (parse_ends _).2.1 (fun run hrun _ ↦ hrun.length_le.trans (by decide)) _ hparse
  exact ⟨hparse, hmessage.2⟩

end ParserCombinators.Json
