import GoMetadata.Proofs.Session.Output
import GoMetadata.Proofs.Text.Utf8

/-!
Settings where the configuration file is no help. A file that is missing or cannot be read, that is
no TOML or has no table for the driver leaves the settings as they are without any file. What else
can be wrong ends the run: a path that the system cannot be asked for, a file that is not UTF-8, and
integers of more digits than are read or, among flags, written.
-/

namespace GoMetadata

namespace Toml

inductive HasLongInteger : Value → Prop where
  | int {value : Int} (long : Nat.pow 10 Numeral.maxDigits ≤ value.natAbs) :
      HasLongInteger (.int value)
  | list {items : List Value} {item : Value} (member : item ∈ items)
      (long : HasLongInteger item) : HasLongInteger (.list items)
  | table {entries : List (String × Value)} {entry : String × Value} (member : entry ∈ entries)
      (long : HasLongInteger entry.2) : HasLongInteger (.table entries)

/-- Something can be written unless a long integer is in it. -/
def Written {α : Type} (long : Prop) (outcome : Except Defect α) : Prop :=
  (long ∧ outcome = .error .integerTooLong) ∨ (¬long ∧ ∃ value, outcome = .ok value)

section Written

variable {α β : Type} {long other : Prop} {outcome : Except Defect α}

theorem written_ok (absent : ¬long) (value : α) : Written long (.ok value) :=
  .inr ⟨absent, value, rfl⟩

theorem Written.congr (written : Written long outcome) (same : long ↔ other) :
    Written other outcome := by
  rwa [Written, ← same]

theorem Written.bind {next : α → Except Defect β} (written : Written long outcome)
    (further : ∀ value, Written other (next value)) :
    Written (long ∨ other) (outcome >>= next) := by
  rcases written with ⟨is, rfl⟩ | ⟨isNot, value, rfl⟩
  · exact .inl ⟨.inl is, rfl⟩
  · exact (further value).congr (or_iff_right isNot).symm

theorem Written.map (written : Written long outcome) (f : α → β) :
    Written long (outcome.map f) := by
  rcases written with ⟨is, rfl⟩ | ⟨isNot, value, rfl⟩
  · exact .inl ⟨is, rfl⟩
  · exact .inr ⟨isNot, f value, rfl⟩

theorem Written.cons {rest : Except Defect (List α)} (first : Written long outcome)
    (others : Written other rest) :
    Written (long ∨ other) (do return (← outcome) :: (← rest)) := by
  refine first.bind fun head => ?_
  have more := others.bind fun tail => written_ok not_false (head :: tail)
  exact more.congr (iff_of_eq (or_false other))

theorem written_mapM {f : β → Except Defect α} {holds : β → Prop}
    (written : ∀ item, Written (holds item) (f item)) (items : List β) :
    Written (∃ item ∈ items, holds item) (items.mapM f) := by
  induction items with
  | nil => exact written_ok nofun []
  | cons item items ih =>
    rw [List.mapM_cons, List.exists_mem_cons_iff]
    exact (written item).cons ih

theorem written_integerText (value : Int) :
    Written (HasLongInteger (.int value)) (integerText value) := by
  rw [integerText]
  split
  next long => exact .inl ⟨.int long, rfl⟩
  next short =>
    refine written_ok ?_ _
    rintro ⟨long⟩
    exact short long

mutual
theorem written_nestedText : (value : Value) → Written (HasLongInteger value) (nestedText value)
  | .null => written_ok nofun _
  | .bool _ => written_ok nofun _
  | .int value => written_integerText value
  | .float _ => written_ok nofun _
  | .text _ => written_ok nofun _
  | .date _ => written_ok nofun _
  | .time _ => written_ok nofun _
  | .moment _ _ _ => written_ok nofun _
  | .list items => by
    rw [nestedText]
    refine ((written_itemTexts items).map _).congr ⟨?_, ?_⟩
    · rintro ⟨item, member, long⟩
      exact .list member long
    · rintro (_ | ⟨member, long⟩)
      exact ⟨_, member, long⟩
  | .table entries => by
    rw [nestedText]
    refine ((written_entryTexts entries).map _).congr ⟨?_, ?_⟩
    · rintro ⟨entry, member, long⟩
      exact .table member long
    · rintro (_ | _ | ⟨member, long⟩)
      exact ⟨_, member, long⟩

theorem written_itemTexts :
    (items : List Value) → Written (∃ item ∈ items, HasLongInteger item) (itemTexts items)
  | [] => written_ok nofun _
  | item :: items => by
    rw [itemTexts, List.exists_mem_cons_iff]
    exact (written_nestedText item).cons (written_itemTexts items)

theorem written_entryTexts : (entries : List (String × Value)) →
    Written (∃ entry ∈ entries, HasLongInteger entry.2) (entryTexts entries)
  | [] => written_ok nofun _
  | (key, value) :: entries => by
    rw [entryTexts, entryText, List.exists_mem_cons_iff]
    exact ((written_nestedText value).map _).cons (written_entryTexts entries)
end

theorem written_toText (value : Value) : Written (HasLongInteger value) value.toText := by
  cases value with
  | text | date | time | moment => exact written_ok nofun _
  | null | bool | int | float | list | table => exact written_nestedText _

end Written

end Toml

namespace Settings

open Toml (Table HasLongInteger Written written_ok)

def HasLongFlag (found : Toml.Value) : Prop :=
  ∃ items item, found = .list items ∧ item ∈ items ∧ HasLongInteger item

theorem written_listedFlags (items : List Toml.Value) :
    Written (∃ item ∈ items, HasLongInteger item) (listedFlags items) := by
  have texts := Toml.written_mapM Toml.written_toText items
  refine (texts.bind fun found => ?_).congr (iff_of_eq (or_false _))
  exact written_ok not_false ((found.map Text.strip).filter (· ≠ ""))

theorem written_flagsOf (found : Toml.Value) : Written (HasLongFlag found) (flagsOf found) := by
  cases found with
  | list items =>
    refine (written_listedFlags items).congr ⟨?_, ?_⟩
    · rintro ⟨item, member, long⟩
      exact ⟨items, item, rfl, member, long⟩
    · rintro ⟨_, item, ⟨⟩, member, long⟩
      exact ⟨item, member, long⟩
  | _ =>
    refine written_ok ?_ _
    rintro ⟨_, _, ⟨⟩, _⟩

def HasLongFlags (environment : Environment) (found : Table) : Prop :=
  (environment.get startupFlagsVariable "" = "" ∧
    HasLongFlag (found.get "bazel_startup_flags")) ∨
  HasLongFlag (found.get "build_flags")

theorem written_chooseStartupFlags (environment : Environment) (found : Table) :
    Written (environment.get startupFlagsVariable "" = "" ∧
      HasLongFlag (found.get "bazel_startup_flags")) (chooseStartupFlags environment found) := by
  unfold chooseStartupFlags
  dsimp only
  split
  next blank => exact (written_flagsOf _).congr (and_iff_right blank).symm
  next given => exact written_ok (fun both => given both.1) _

theorem written_chooseBuildFlags (environment : Environment) (found : Table) :
    Written (HasLongFlag (found.get "build_flags")) (chooseBuildFlags environment found) := by
  refine ((written_flagsOf _).bind fun configured => ?_).congr (iff_of_eq (or_false _))
  exact written_ok not_false _

theorem written_choose (base : Path) (environment : Environment) (found : Table) :
    Written (HasLongFlags environment found) (choose base environment found) := by
  refine (written_chooseStartupFlags environment found).bind fun startupFlags => ?_
  refine ((written_chooseBuildFlags environment found).bind fun buildFlags => ?_).congr
    (iff_of_eq (or_false _))
  exact written_ok not_false _

/-- A configuration file that has nothing to say on the driver. -/
inductive SaysNothing : Except Refusal Bytes → Prop where
  | unreadable (error : SystemError) : SaysNothing (.error (.failed error))
  | notToml {text : String}
      (refused : Toml.parse (Text.unifyLineEnds text.toList) = .error .malformed) :
      SaysNothing (.ok (Utf8.encode text))
  | noTable {text : String} {config : Table}
      (parsed : Toml.parse (Text.unifyLineEnds text.toList) = .ok config)
      (other : ∀ entries, config.get "driver" ≠ .table entries) :
      SaysNothing (.ok (Utf8.encode text))

/-- A configuration file that ends the run, and why. -/
inductive Breaks (environment : Environment) : Except Refusal Bytes → Defect → Prop where
  | nulInPath : Breaks environment (.error .nulCharacter) .nulCharacter
  | notText {bytes : Bytes} {fault : Utf8.Fault} (broken : Utf8.decode bytes = .error fault) :
      Breaks environment (.ok bytes) (.undecodable fault)
  | unreadNumeral {text : String} {digits : Nat}
      (refused : Toml.parse (Text.unifyLineEnds text.toList) = .error (.numeralTooLong digits)) :
      Breaks environment (.ok (Utf8.encode text)) (.numeralTooLong digits)
  | unwrittenFlag {text : String} {config : Table} {entries : List (String × Toml.Value)}
      (parsed : Toml.parse (Text.unifyLineEnds text.toList) = .ok config)
      (table : config.get "driver" = .table entries) (long : HasLongFlags environment entries) :
      Breaks environment (.ok (Utf8.encode text)) .integerTooLong

section Loading

variable {base : Path} {environment : Environment} {content : Except Refusal Bytes}

theorem readConfig_of_text (text : String) :
    readConfig (.ok (Utf8.encode text)) =
      match Toml.parse (Text.unifyLineEnds text.toList) with
      | .error .malformed => .ok []
      | .error (.numeralTooLong digits) => .error (.numeralTooLong digits)
      | .ok table => .ok table := by
  have decoded : Utf8.decode (Utf8.encode text) = .ok text := Utf8.decode_eq_ok_iff.2 rfl
  cases parsed : Toml.parse (Text.unifyLineEnds text.toList) with
  | error fault => cases fault <;> simp only [readConfig, decoded, parsed]
  | ok table => simp only [readConfig, decoded, parsed]

theorem sectionOf_of_table {config : Table} {entries : List (String × Toml.Value)}
    (table : config.get "driver" = .table entries) : sectionOf config = entries := by
  rw [sectionOf, table]

theorem sectionOf_of_other {config : Table}
    (other : ∀ entries, config.get "driver" ≠ .table entries) : sectionOf config = [] := by
  unfold sectionOf
  split
  next entries table => exact absurd table (other entries)
  next => rfl

theorem ofConfigFile_of_readConfig {config : Table} (read : readConfig content = .ok config) :
    ofConfigFile base environment content = choose base environment (sectionOf config) := by
  rw [ofConfigFile, read]
  exact pure_bind config fun config => choose base environment (sectionOf config)

theorem ofConfigFile_of_error {defect : Defect} (read : readConfig content = .error defect) :
    ofConfigFile base environment content = .error defect := by
  rw [ofConfigFile, read]
  rfl

theorem ofConfigFile_of_readConfig_nil (read : readConfig content = .ok []) :
    ofConfigFile base environment content = choose base environment [] := by
  have none : sectionOf [] = [] := rfl
  rw [ofConfigFile_of_readConfig read, none]

theorem SaysNothing.ofConfigFile_eq (nothing : SaysNothing content) :
    ofConfigFile base environment content = choose base environment [] := by
  cases nothing with
  | unreadable error => exact ofConfigFile_of_readConfig_nil rfl
  | notToml refused =>
    refine ofConfigFile_of_readConfig_nil ?_
    rw [readConfig_of_text, refused]
  | @noTable text config parsed other =>
    rw [← sectionOf_of_other other]
    refine ofConfigFile_of_readConfig ?_
    rw [readConfig_of_text, parsed]

theorem not_hasLongFlags_nil (environment : Environment) : ¬HasLongFlags environment [] := by
  rintro (⟨-, _, _, ⟨⟩, _⟩ | ⟨_, _, ⟨⟩, _⟩)

theorem choose_nil (base : Path) (environment : Environment) :
    ∃ settings, choose base environment [] = .ok settings := by
  rcases written_choose base environment [] with ⟨long, -⟩ | ⟨-, found⟩
  · exact absurd long (not_hasLongFlags_nil environment)
  · exact found

/-- A file has nothing to say, or ends the run, or has a table that settings are taken from. -/
theorem saysNothing_or_breaks_or_table (environment : Environment)
    (content : Except Refusal Bytes) :
    SaysNothing content ∨ (∃ defect, Breaks environment content defect) ∨
      ∃ text config entries, content = .ok (Utf8.encode text) ∧
        Toml.parse (Text.unifyLineEnds text.toList) = .ok config ∧
        config.get "driver" = .table entries ∧ ¬HasLongFlags environment entries := by
  cases content with
  | error refusal =>
    cases refusal with
    | failed error => exact .inl (.unreadable error)
    | nulCharacter => exact .inr (.inl ⟨_, .nulInPath⟩)
  | ok bytes =>
    cases decoded : Utf8.decode bytes with
    | error fault => exact .inr (.inl ⟨_, .notText decoded⟩)
    | ok text =>
      obtain rfl := Utf8.decode_eq_ok_iff.1 decoded
      cases parsed : Toml.parse (Text.unifyLineEnds text.toList) with
      | error fault =>
        cases fault with
        | malformed => exact .inl (.notToml parsed)
        | numeralTooLong digits => exact .inr (.inl ⟨_, .unreadNumeral parsed⟩)
      | ok config =>
        by_cases table : ∃ entries, config.get "driver" = .table entries
        · obtain ⟨entries, table⟩ := table
          by_cases long : HasLongFlags environment entries
          · exact .inr (.inl ⟨_, .unwrittenFlag parsed table long⟩)
          · exact .inr (.inr ⟨text, config, entries, rfl, parsed, table, long⟩)
        · exact .inl (.noTable parsed (not_exists.1 table))

theorem Breaks.ofConfigFile_eq {defect : Defect} (breaks : Breaks environment content defect) :
    ofConfigFile base environment content = .error defect := by
  cases breaks with
  | nulInPath => rfl
  | notText broken =>
    refine ofConfigFile_of_error ?_
    rw [readConfig, broken]
  | unreadNumeral refused =>
    refine ofConfigFile_of_error ?_
    rw [readConfig_of_text, refused]
  | unwrittenFlag parsed table long =>
    rw [ofConfigFile_of_readConfig (by rw [readConfig_of_text, parsed]), sectionOf_of_table table]
    rcases written_choose base environment _ with ⟨-, failed⟩ | ⟨short, -⟩
    · exact failed
    · exact absurd long short

theorem ofConfigFile_eq_error_iff {defect : Defect} :
    ofConfigFile base environment content = .error defect ↔
      Breaks environment content defect := by
  refine ⟨fun failed => ?_, Breaks.ofConfigFile_eq⟩
  rcases saysNothing_or_breaks_or_table environment content with
    nothing | ⟨other, breaks⟩ | ⟨text, config, entries, rfl, parsed, table, short⟩
  · obtain ⟨settings, found⟩ := choose_nil base environment
    rw [nothing.ofConfigFile_eq, found] at failed
    cases failed
  · rw [breaks.ofConfigFile_eq] at failed
    cases failed
    exact breaks
  · rw [ofConfigFile_of_readConfig (by rw [readConfig_of_text, parsed]),
      sectionOf_of_table table] at failed
    rcases written_choose base environment entries with ⟨long, -⟩ | ⟨-, settings, found⟩
    · exact absurd long short
    · rw [found] at failed
      cases failed

theorem run_of_breaks {τ : Type}
    (reply : τ → (question : Host.Ask) → Host.Reply question × τ) (machine : τ)
    {line arguments : List String} (request : Bytes) {defect : Defect}
    (identified : CommandLine.ofArguments line = .identifiers arguments)
    (breaks : Breaks environment (reply machine (.read (configPath base environment))).1 defect) :
    ((CommandLine.run none base environment line request).hold reply machine).1 =
      ⟨1, "", some defect⟩ := by
  have loaded : ((CommandLine.settingsOf none base environment).hold reply machine).1 =
      .error defect :=
    breaks.ofConfigFile_eq
  rw [CommandLine.run_identifiers request identified, Dialogue.hold_bind, loaded]
  rfl

end Loading

def noFile (path : Path) : Except Refusal Bytes :=
  .error (.failed (.missing (Text.quoted path.text)))

/-- A configuration file that has nothing to say is as good as none. Settings are missing only where
it breaks, and then the run ends with that. Nesting beyond the recursion limit of a reader is outside
the model, where a file may be nested as deep as it is long. -/
theorem load_falls_back_unless_broken (base : Path) (environment : Environment) :
    (∃ settings, load noFile base environment = .ok settings) ∧
    (∀ read : Path → Except Refusal Bytes,
      (SaysNothing (read (configPath base environment)) →
        load read base environment = load noFile base environment) ∧
      ∀ defect, load read base environment = .error defect ↔
        Breaks environment (read (configPath base environment)) defect) ∧
    ∀ (τ : Type) (reply : τ → (question : Host.Ask) → Host.Reply question × τ) (machine : τ)
      (line arguments : List String) (request : Bytes) (defect : Defect),
      CommandLine.ofArguments line = .identifiers arguments →
      Breaks environment (reply machine (.read (configPath base environment))).1 defect →
      ((CommandLine.run none base environment line request).hold reply machine).1 =
        ⟨1, "", some defect⟩ := by
  have bare : load noFile base environment = choose base environment [] :=
    (SaysNothing.unreadable _).ofConfigFile_eq
  refine ⟨?_, fun read => ⟨fun nothing => ?_, fun defect => ofConfigFile_eq_error_iff⟩, ?_⟩
  · rw [bare]
    exact choose_nil base environment
  · rw [bare]
    exact nothing.ofConfigFile_eq
  · intro τ reply machine line arguments request defect identified breaks
    exact run_of_breaks reply machine request identified breaks

def onlyBytes (_ : Unit) : (question : Host.Ask) → Host.Reply question × Unit
  | .read _ => (.ok [0xff], ())
  | .reserveLog _ => (.error .nulCharacter, ())
  | .start _ => (.error .nulCharacter, ())
  | .removeFile _ => ((), ())
  | .print _ => ((), ())

/-- A list in place of the table counts as no file; a byte that begins no character ends the run. -/
theorem load_falls_back_unless_broken_list_and_byte :
    load (fun _ => .ok (Utf8.encode "[[driver]]\r\n")) (.ofText "/w") [] =
      .ok { workspaceRoot := .ofText "/w" } ∧
    ((CommandLine.run none (.ofText "/w") [] ["file=a.go"] []).hold onlyBytes ()).1 =
      ⟨1, "", some (.undecodable ⟨.invalidStart, 0, 0xff, 1⟩)⟩ := by
  have parsed : Toml.parse (Text.unifyLineEnds "[[driver]]\r\n".toList) =
      .ok [("driver", .list [.table []])] := rfl
  have list : SaysNothing (.ok (Utf8.encode "[[driver]]\r\n")) := by
    refine .noTable parsed ?_
    intro entries wrong
    cases wrong
  have byte : Breaks [] (.ok [0xff]) (.undecodable ⟨.invalidStart, 0, 0xff, 1⟩) :=
    .notText (by decide +kernel)
  obtain ⟨-, loads, runs⟩ := load_falls_back_unless_broken (.ofText "/w") []
  refine ⟨((loads _).1 list).trans (by decide +kernel), ?_⟩
  exact runs Unit onlyBytes () _ ["file=a.go"] [] _ (by decide +kernel) byte

/-- A byte that begins no character leaves no settings, and neither does a null character in the
variable that names the file. -/
theorem not_loaded_byte_or_nul_name :
    load (fun _ => .ok [0xff]) (.ofText "/w") [] =
      .error (.undecodable ⟨.invalidStart, 0, 0xff, 1⟩) ∧
    load ((FileTree.directory []).read {}) (.ofText "/w") [(configVariable, "a\x00")] =
      .error .nulCharacter := by
  decide +kernel

end Settings

end GoMetadata
