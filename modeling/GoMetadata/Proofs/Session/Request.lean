import GoMetadata.CommandLine
import GoMetadata.Proofs.Json.Overlong

/-!
How a request ends that cannot be used. Whatever its bytes are, it is read or reported as malformed,
unless it has an integer of more digits than are read: then the run ends without a word.
-/

namespace GoMetadata

namespace Request

def Reported (outcome : Except Failure Request) : Prop :=
  (∃ request, outcome = .ok request) ∨
    ∃ reason, outcome = .error (.reported (.malformedRequest reason))

def Overlong (text : String) (digits : Nat) : Prop :=
  Json.parse text.toList = .error (.numeralTooLong digits)

theorem reported_malformed (reason : String) : Reported (malformed reason) :=
  .inr ⟨reason, rfl⟩

theorem not_reported_unreported (defect : Defect) : ¬Reported (.error (.unreported defect)) := by
  rintro (⟨request, read⟩ | ⟨reason, told⟩)
  · cases read
  · cases told

variable {text : String} {digits : Nat}

theorem Overlong.isBlankText_eq_false (overlong : Overlong text digits) :
    Text.isBlankText text = false := by
  obtain ⟨many, run, inside, length, all⟩ := Json.hasOverlong_of_parse overlong
  cases run with
  | nil =>
    rw [List.length_nil] at length
    omega
  | cons c rest =>
    have digit : 48 ≤ c.toNat ∧ c.toNat ≤ 57 :=
      Char.isDigit_iff_toNat.1 (all c List.mem_cons_self)
    have blank : Text.isBlank c = false := by
      simp only [Text.isBlank, Bool.or_eq_false_iff, Bool.and_eq_false_iff,
        decide_eq_false_iff_not, beq_eq_false_iff_ne]
      omega
    rw [Text.isBlankText, List.all_eq_false]
    exact ⟨c, inside.subset List.mem_cons_self, by simp [blank]⟩

theorem Overlong.ofText_eq (overlong : Overlong text digits) :
    ofText text = .error (.unreported (.numeralTooLong digits)) := by
  rw [ofText, if_neg (Bool.eq_false_iff.1 overlong.isBlankText_eq_false), overlong]

theorem reported_ofText_iff (text : String) :
    Reported (ofText text) ↔ ∀ digits, ¬Overlong text digits := by
  constructor
  · intro reported digits overlong
    rw [overlong.ofText_eq] at reported
    exact not_reported_unreported _ reported
  · intro short
    unfold ofText
    split
    · exact .inl ⟨_, rfl⟩
    · split
      next digits overlong => exact absurd overlong (short digits)
      · exact reported_malformed _
      · split
        · exact .inl ⟨_, rfl⟩
        · exact reported_malformed _
      · exact reported_malformed _

theorem reported_decode_iff (bytes : Bytes) :
    Reported (decode bytes) ↔
      ∀ text digits, Utf8.decode bytes = .ok text → ¬Overlong text digits := by
  unfold decode
  cases Utf8.decode bytes with
  | error fault => exact iff_of_true (reported_malformed _) nofun
  | ok text =>
    rw [reported_ofText_iff]
    constructor
    · rintro short _ digits ⟨⟩
      exact short digits
    · intro short digits
      exact short text digits rfl

theorem not_overlong_render_iff {separators : Json.Separators} (plain : separators.IsPlain)
    {value : Json} (whole : value.Whole) :
    (∀ digits, ¬Overlong (value.render separators) digits) ↔ value.Lossless := by
  have written : (value.render separators).toList = value.write separators := String.toList_ofList
  simp only [Overlong, written]
  constructor
  · intro short
    obtain lossless | ⟨digits, overlong⟩ := Json.lossless_or_parse_write plain whole
    · exact lossless
    · exact absurd overlong (short digits)
  · intro lossless digits overlong
    rw [Json.parse_write plain lossless] at overlong
    cases overlong

end Request

namespace CommandLine

variable {settings : Settings} {arguments : List String} {bytes : Bytes}

theorem run_respondTo_of_failure {failure : Failure} (given : arguments ≠ [])
    (failed : Request.decode bytes = .error failure) :
    (Session.respondTo settings arguments bytes).run = .done (.error failure) := by
  rw [Session.respondTo, failed, Identifier.ofArguments, if_neg given]
  rfl

theorem runWith_of_failure {failure : Failure} (given : arguments ≠ [])
    (failed : Request.decode bytes = .error failure) :
    runWith settings arguments bytes =
      match failure with
      | .reported error => .ask (.print (.failure error.message)) fun _ => .done ⟨1, "", none⟩
      | .unreported defect => .done ⟨1, "", some defect⟩ := by
  have ended : ((bazelOf settings).serve (Session.respondTo settings arguments bytes)).run =
      .done (.error failure) := by
    rw [Bazel.serve, run_respondTo_of_failure given failed]
    rfl
  rw [runWith, ended]
  cases failure <;> rfl

end CommandLine

namespace Request

/-- A request, as text or as bytes, is read or reported as malformed unless reading ends at an
integer with more digits than are read. Such an integer stands in the text, and of the documents
that are written as JSON all with such an integer are like that. The command line tells what is
reported and nothing else, and without a report it ends without a word. Nesting beyond the recursion
limit of a reader is outside the model. -/
theorem reported_unless_overlong (text : String) (bytes : Bytes) :
    (Reported (ofText text) ↔ ∀ digits, ¬Overlong text digits) ∧
    (Reported (decode bytes) ↔
      ∀ text digits, Utf8.decode bytes = .ok text → ¬Overlong text digits) ∧
    (∀ digits, Overlong text digits →
      ofText text = .error (.unreported (.numeralTooLong digits)) ∧
        Json.HasOverlong text.toList digits) ∧
    (∀ separators value, Json.Separators.IsPlain separators → Json.Whole value →
      ((∀ digits, ¬Overlong (value.render separators) digits) ↔ value.Lossless)) ∧
    ∀ settings arguments, arguments ≠ [] →
      (∀ reason, decode bytes = .error (.reported (.malformedRequest reason)) →
        CommandLine.runWith settings arguments bytes =
          .ask (.print (.failure ("could not unmarshal driver request: " ++ reason)))
            fun _ => .done ⟨1, "", none⟩) ∧
      ∀ digits, decode bytes = .error (.unreported (.numeralTooLong digits)) →
        CommandLine.runWith settings arguments bytes =
          .done ⟨1, "", some (.numeralTooLong digits)⟩ := by
  refine ⟨reported_ofText_iff text, reported_decode_iff bytes, ?_, ?_, ?_⟩
  · intro digits overlong
    exact ⟨overlong.ofText_eq, Json.hasOverlong_of_parse overlong⟩
  · intro separators value plain whole
    exact not_overlong_render_iff plain whole
  · intro settings arguments given
    constructor
    · intro reason malformed
      exact CommandLine.runWith_of_failure given malformed
    · intro digits overlong
      exact CommandLine.runWith_of_failure given overlong

theorem reported_unless_overlong_one_and_bracket :
    Reported (ofText (Json.render Json.spaced (.object [("mode", .int 1)]))) ∧
      CommandLine.runWith { workspaceRoot := .ofText "/w" } ["//a"] [0x5b] =
        .ask (.print (.failure ("could not unmarshal driver request: " ++
          "Expecting value: line 1 column 2 (char 1)"))) fun _ => .done ⟨1, "", none⟩ := by
  obtain ⟨reported, -, -, written, told⟩ := reported_unless_overlong
    (Json.render Json.spaced (.object [("mode", .int 1)])) [0x5b]
  have small : Json.Lossless (.int 1) := .int (Numeral.lt_pow_maxDigits (by decide))
  have lossless : Json.Lossless (.object [("mode", .int 1)]) :=
    .object (List.pairwise_singleton _ _) (List.forall_mem_singleton.2 small)
  have whole := Json.whole_of_lossless lossless
  refine ⟨reported.2 ((written _ _ Json.isPlain_spaced whole).2 lossless), ?_⟩
  exact (told _ _ (List.cons_ne_nil _ _)).1 _ (by decide +kernel)

def modeText (zeros : Nat) : String :=
  "\x7b\"mode\": 1" ++ String.ofList (List.replicate zeros '0') ++ "\x7d"

theorem toList_modeText (zeros : Nat) :
    (modeText zeros).toList =
      Json.write Json.spaced (.object [("mode", .int (10 ^ zeros : Nat))]) := by
  have written : (toString ((10 ^ zeros : Nat) : Int)).toList =
      '1' :: List.replicate zeros '0' := by
    rw [Json.toList_toString_int, if_neg (Int.not_lt.2 (Int.natCast_nonneg _)),
      Int.natAbs_natCast, Numeral.toDigits_pow]
    rfl
  simp only [modeText, Json.write, Json.writeEntries, Json.writeEntry, written,
    String.toList_append, String.toList_ofList]
  rfl

theorem overlong_modeText {zeros : Nat} (many : Numeral.maxDigits ≤ zeros) :
    Overlong (modeText zeros) (zeros + 1) := by
  rw [Overlong, toList_modeText]
  exact Json.parse_write_pow Json.isPlain_spaced "mode" many

/-- What is wrong with a mode of 4301 digits is not reported. -/
theorem not_reported_modeText :
    ofText (modeText 4300) = .error (.unreported (.numeralTooLong 4301)) ∧
      ¬Reported (ofText (modeText 4300)) := by
  have ended := (overlong_modeText (Nat.le_refl 4300)).ofText_eq
  refine ⟨ended, ?_⟩
  rw [ended]
  exact not_reported_unreported _

end Request

end GoMetadata
