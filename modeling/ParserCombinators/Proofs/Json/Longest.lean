import ParserCombinators.Proofs.Json.Completeness
import ParserCombinators.Proofs.Json.NumberText

/-!
# Parsing finds the longest document

A blank after a value makes a longer slice with the same value, and a part that goes on makes a
longer numeral. So a document that no longer one continues is read as a whole, and parsing says that
a text is no JSON only if none of its prefixes is a document.
-/

namespace ParserCombinators.Json

open Character
open ParserCombinators.Parser

variable {κ ρ : Type} {text : Text} {slice gap body rest : List Char} {value : Value}

/-! ## Longer slices -/

theorem Derives.append_blank {c : Char} (hderives : Derives slice value) (hc : isBlank c = true) :
    Derives (slice ++ [c]) value := by
  have hlonger {gap : List Char} (hgap : AllBlank gap) : AllBlank (gap ++ [c]) :=
    List.forall_mem_append.2 ⟨hgap, List.forall_mem_singleton.2 hc⟩
  cases hderives with
  | string hstring hgap => simpa using Derives.string hstring (hlonger hgap)
  | number numeral hgap => simpa using Derives.number numeral (hlonger hgap)
  | word hword hgap => simpa using Derives.word hword (hlonger hgap)
  | emptyArray hgap hgap' => simpa using Derives.emptyArray hgap (hlonger hgap')
  | array hitems hgap => simpa using Derives.array hitems (hlonger hgap)
  | emptyObject hgap hgap' => simpa using Derives.emptyObject hgap (hlonger hgap')
  | object hmembers hmerged hgap =>
    simpa using Derives.object hmembers hmerged (hlonger hgap)

/-! ## Reading the longest slice -/

theorem follows_of_longest (hderives : Derives body value)
    (hlongest : ∀ more rest' other, rest = more ++ rest' → more ≠ [] →
      ¬Derives (body ++ more) other) : Follows body rest := by
  constructor
  · intro c hc
    apply Bool.eq_false_iff.2
    intro hblank
    obtain ⟨rest', rfl⟩ := List.head?_eq_some_iff.1 hc
    exact hlongest [c] rest' value rfl (List.cons_ne_nil c []) (hderives.append_blank hblank)
  · rintro numeral rfl
    apply numeral.stops_of_longest
    intro more rest' longer hmore hne htext
    have hlonger : Derives (longer.text ++ []) _ := .number longer (List.forall_mem_nil _)
    rw [List.append_nil, htext] at hlonger
    exact hlongest more rest' _ hmore hne hlonger

theorem readsLongest_document {rules : κ → Matcher ρ} (hruns : HasShortRuns text.toList) :
    (document : Parser κ ρ Value).ReadsLongest text rules Document text.toList := by
  rintro _ rest value hsplit ⟨gap, body, rfl, hgap, hbody⟩ hlongest
  have hfollows : Follows body rest := by
    apply follows_of_longest hbody
    intro more rest' other hmore hne hother
    exact hlongest more rest' other hmore hne ⟨gap, body ++ more, by simp, hgap, hother⟩
  rw [List.append_assoc] at hsplit
  have hleft : gap ++ (body ++ rest) <:+ text.toList := hsplit ▸ List.suffix_rfl
  rw [hsplit]
  exact (isRead_of_derives hbody hruns).document hleft hgap hfollows

theorem document_eq_success_iff (hruns : HasShortRuns text.toList) {position : Int} :
    (document.run text).outcome = .success value position ↔
      IsLongestPrefix Document text value position :=
  outcome_eq_success_iff (respects_document List.suffix_rfl hruns) (readsLongest_document hruns)

theorem document_eq_failure_iff (hruns : HasShortRuns text.toList) :
    (document.run text).outcome = .failure ↔ ¬HasPrefix Document text :=
  outcome_eq_failure_iff (respects_document List.suffix_rfl hruns) (readsLongest_document hruns)

theorem parse_eq_notJson_iff (hruns : HasShortRuns text.toList) :
    parse text = .error (.notJson (String.ofList (text.toList.take 20))) ↔
      ¬HasPrefix Document text := by
  constructor
  · intro hparse hsome
    obtain ⟨value, position, hlongest⟩ := hsome.exists_longest
    rw [parse, (document_eq_success_iff hruns).2 hlongest] at hparse
    cases hparse
  · intro hnone
    rw [parse, (document_eq_failure_iff hruns).2 hnone]
    rfl

/-- The reader takes the longest prefix that is a document, and without one the text is no JSON. -/
theorem document_iff_longest (text : Text) (hruns : HasShortRuns text.toList) :
    (∀ value position, (document.run text).outcome = .success value position ↔
      IsLongestPrefix Document text value position) ∧
    ((document.run text).outcome = .failure ↔ ¬HasPrefix Document text) ∧
    (parse text = .error (.notJson (String.ofList (text.toList.take 20))) ↔
      ¬HasPrefix Document text) :=
  ⟨fun _ _ ↦ document_eq_success_iff hruns, document_eq_failure_iff hruns,
    parse_eq_notJson_iff hruns⟩

/-- Blanks stand inside of the brackets and after them. -/
theorem document_of_null_list :
    (document.run #['[', 'n', 'u', 'l', 'l', ' ', ']', ' ']).outcome =
      .success (.array [.null]) 8 := by
  have hruns : HasShortRuns ['[', 'n', 'u', 'l', 'l', ' ', ']', ' '] :=
    fun run hrun _ ↦ hrun.length_le.trans (by decide)
  have hblank : AllBlank [' '] := List.forall_mem_singleton.2 (by decide)
  have hnull : Derives ['n', 'u', 'l', 'l', ' '] .null :=
    .word .null hblank
  let item : Item := ⟨[], ['n', 'u', 'l', 'l', ' '], .null, List.forall_mem_nil _⟩
  have hitems : ∀ other ∈ [item], Derives other.slice other.value :=
    List.forall_mem_singleton.2 hnull
  have hlist : Derives ['[', 'n', 'u', 'l', 'l', ' ', ']', ' '] (.array [.null]) :=
    .array hitems hblank
  exact ((document_iff_longest _ hruns).1 _ _).2
    (isLongestPrefix_whole ⟨[], _, rfl, List.forall_mem_nil _, hlist⟩)

end ParserCombinators.Json
