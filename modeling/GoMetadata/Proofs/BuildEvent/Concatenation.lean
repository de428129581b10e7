import GoMetadata.Proofs.BuildEvent.Reading

/-!
Messages behind each other. What is read from a message does to the value of whatever was read
before it what it does to the empty value: repeated fields join those before them, of a single field
the last one stands, and a fault is the same fault. So only the order among fields of one number
matters.
-/

namespace GoMetadata

open Wire

/-- One of the fields has the number, under a wire type that the kind knows. -/
def MessageKind.Gives (kind : MessageKind) (fields : List Field) (number : Nat) : Prop :=
  ∃ field ∈ fields, field.number = number ∧ ¬kind.Ignores field

/-- A field that is taken in under the number occurs in the bytes. -/
def MessageKind.Mentions (kind : MessageKind) (bytes : Bytes) (number : Nat) : Prop :=
  ∃ fields, IsMessage bytes fields ∧ kind.Gives fields number

/-- A component put together from an earlier value and a later one. -/
def Slot.Joins {σ : Type} (given : Prop) (earlier later joined : σ) : Slot σ → Prop
  | single get => (given → get joined = get later) ∧ (¬given → get joined = get earlier)
  | repeated get => get joined = get earlier ++ get later

/-- A value put together from an earlier message and the bytes of a later one. -/
def MessageKind.Joins (kind : MessageKind) (bytes : Bytes) (earlier later joined : kind.Value) :
    Prop :=
  ∀ entry ∈ kind.slots, entry.2.Joins (kind.Mentions bytes entry.1) earlier later joined

def Slot.Agree {σ : Type} (value other : σ) : Slot σ → Prop
  | single get => get value = get other
  | repeated get => get value = get other

def Slot.Blank {σ : Type} (value : σ) : Slot σ → Prop
  | single _ => True
  | repeated get => get value = []

def MessageKind.Changes (kind : MessageKind) (fields : List Field)
    (value next other otherNext : kind.Value) : Prop :=
  ∀ entry ∈ kind.slots, entry.2.Changes (kind.Gives fields entry.1) value next other otherNext

theorem eq_of_agree {kind : MessageKind} {value other : kind.Value}
    (agree : ∀ entry ∈ kind.slots, entry.2.Agree value other) : value = other := by
  cases kind with
  | setId | label => exact agree _ List.mem_cons_self
  | file | namedSet | outputGroup | completion | eventId | event =>
    cases value
    cases other
    simp only [MessageKind.slots, List.forall_mem_cons, Slot.Agree] at agree
    simp only [agree]
    rfl

section Slots

variable {σ : Type} {slot : Slot σ}

theorem Slot.Changes.refl {given : Prop} (absent : ¬given) (value other : σ) :
    slot.Changes given value value other other := by
  cases slot with
  | single get => exact ⟨fun present => absurd present absent, fun _ => ⟨rfl, rfl⟩⟩
  | repeated get => exact ⟨[], (List.append_nil _).symm, (List.append_nil _).symm, fun _ => rfl⟩

theorem Slot.Changes.trans {given givenNext : Prop} {value next last other otherNext otherLast : σ}
    (change : slot.Changes given value next other otherNext)
    (further : slot.Changes givenNext next last otherNext otherLast) :
    slot.Changes (given ∨ givenNext) value last other otherLast := by
  cases slot with
  | single get =>
    by_cases later : givenNext
    · exact ⟨fun _ => further.1 later, fun absent => absurd (.inr later) absent⟩
    · obtain ⟨same, otherSame⟩ := further.2 later
      refine ⟨fun present => ?_, fun absent => ?_⟩
      · rw [same, otherSame]
        exact change.1 (present.resolve_right later)
      · rw [same, otherSame]
        exact change.2 fun present => absent (.inl present)
  | repeated get =>
    obtain ⟨added, next_eq, otherNext_eq, nothing⟩ := change
    obtain ⟨more, last_eq, otherLast_eq, nothingMore⟩ := further
    refine ⟨added ++ more, ?_, ?_, fun absent => ?_⟩
    · rw [last_eq, next_eq, List.append_assoc]
    · rw [otherLast_eq, otherNext_eq, List.append_assoc]
    · rw [nothing fun present => absent (.inl present),
        nothingMore fun present => absent (.inr present), List.append_nil]

theorem Slot.Changes.joins {given : Prop} {empty later earlier joined : σ}
    (change : slot.Changes given empty later earlier joined) (blank : slot.Blank empty) :
    slot.Joins given earlier later joined := by
  cases slot with
  | single get =>
    exact ⟨fun present => (change.1 present).symm, fun absent => (change.2 absent).2⟩
  | repeated get =>
    obtain ⟨added, later_eq, joined_eq, -⟩ := change
    change get empty = [] at blank
    rw [blank, List.nil_append] at later_eq
    change get joined = get earlier ++ get later
    rw [later_eq, joined_eq]

/-- Two changes to a component, only one of which is real, may be made in either order. -/
theorem Slot.Changes.agree_of_swap {given other : Prop} {start first last second swapped : σ}
    (apart : ¬(given ∧ other)) (change : slot.Changes given start first second swapped)
    (further : slot.Changes other first last start second) : slot.Agree last swapped := by
  cases slot with
  | single get =>
    by_cases present : given
    · obtain ⟨same, -⟩ := further.2 fun also => apart ⟨present, also⟩
      exact same.trans (change.1 present)
    · obtain ⟨same, swappedSame⟩ := change.2 present
      refine Eq.trans ?_ swappedSame.symm
      by_cases also : other
      · exact further.1 also
      · obtain ⟨lastSame, secondSame⟩ := further.2 also
        exact lastSame.trans (same.trans secondSame.symm)
  | repeated get =>
    obtain ⟨added, first_eq, swapped_eq, nothing⟩ := change
    obtain ⟨more, last_eq, second_eq, nothingMore⟩ := further
    change get last = get swapped
    rw [last_eq, first_eq, swapped_eq, second_eq]
    by_cases present : given
    · rw [nothingMore fun also => apart ⟨present, also⟩, List.append_nil, List.append_nil]
    · rw [nothing present, List.append_nil, List.append_nil]

end Slots

theorem blank_empty (kind : MessageKind) : ∀ entry ∈ kind.slots, entry.2.Blank kind.empty := by
  cases kind <;> simp [MessageKind.slots, Slot.Blank, MessageKind.empty]

section Fields

variable {kind : MessageKind} {fields : List Field} {field : Field}
variable {value next last other otherNext otherLast : kind.Value}

theorem gives_cons_iff {number : Nat} :
    kind.Gives (field :: fields) number ↔ kind.Gives [field] number ∨ kind.Gives fields number := by
  simp [MessageKind.Gives]

theorem MessageKind.Changes.cons (change : kind.Changes [field] value next other otherNext)
    (further : kind.Changes fields next last otherNext otherLast) :
    kind.Changes (field :: fields) value last other otherLast := by
  intro entry member
  rw [gives_cons_iff]
  exact (change entry member).trans (further entry member)

/-- A field is refused by all values of a kind with the same fault, or does the same to all. -/
def MessageKind.Alike (kind : MessageKind) (field : Field) : Prop :=
  (∃ fault, ∀ value, kind.absorb value field = .error fault) ∨
    ∃ put : kind.Value → kind.Value, (∀ value, kind.absorb value field = .ok (put value)) ∧
      ∀ value other, kind.Changes [field] value (put value) other (put other)

theorem alike_of_ignores (ignored : kind.Ignores field) : kind.Alike field := by
  refine .inr ⟨id, absorb_of_ignores ignored, fun value other entry _ => .refl ?_ _ _⟩
  rintro ⟨_, member, -, taken⟩
  exact taken (List.mem_singleton.1 member ▸ ignored)

theorem alike_of_put (taken : ¬kind.Ignores field) {put : kind.Value → kind.Value}
    (absorbs : ∀ value, kind.absorb value field = .ok (put value))
    (changes : kind.ChangesAt field.number put) : kind.Alike field := by
  have gives : ∀ number, kind.Gives [field] number ↔ field.number = number := by
    simp [MessageKind.Gives, taken]
  refine .inr ⟨put, absorbs, fun value other entry member => ?_⟩
  rw [gives]
  exact changes value other entry member

end Fields

/-- Every field does the same to all values of a kind, by changing the component of its number. -/
theorem alike (kind : MessageKind) (field : Field) : kind.Alike field := by
  by_cases ignored : kind.Ignores field
  · exact alike_of_ignores ignored
  obtain ⟨number, payload⟩ := field
  cases payload with
  | fixed64 content => exact absurd trivial ignored
  | fixed32 content => exact absurd trivial ignored
  | varint varint =>
    obtain ⟨put, absorbs, changes⟩ := exists_putFlag (Classical.not_not.1 ignored) varint
    exact alike_of_put ignored absorbs changes
  | delimited content =>
    obtain ⟨expected, known⟩ := Option.ne_none_iff_exists'.1 ignored
    obtain ⟨put, absorbs, changes⟩ := exists_put known
    cases decoded : expected.decode content with
    | error fault =>
      refine .inl ⟨fault, fun value => ?_⟩
      rw [absorbs, decoded]
      rfl
    | ok item =>
      refine alike_of_put ignored (fun value => ?_) (changes item)
      rw [absorbs, decoded]
      rfl

section Reading

variable {kind : MessageKind} {bytes : Bytes} {fields others : List Field}

theorem gives_nil (number : Nat) : ¬kind.Gives [] number := by
  rintro ⟨_, member, -⟩
  cases member

theorem mentions_iff (message : IsMessage bytes fields) {number : Nat} :
    kind.Mentions bytes number ↔ kind.Gives fields number := by
  constructor
  · rintro ⟨found, foundMessage, gives⟩
    exact message.unique foundMessage ▸ gives
  · exact fun gives => ⟨fields, message, gives⟩

/-- Whatever values were read before, bytes are refused with the same fault or make the same
change. -/
theorem foldFields_alike (bytes : Bytes) (value other : kind.Value) :
    (∃ fault, foldFields kind.absorb value bytes = .error fault ∧
      foldFields kind.absorb other bytes = .error fault) ∨
    ∃ fields next otherNext, IsMessage bytes fields ∧
      foldFields kind.absorb value bytes = .ok next ∧
      foldFields kind.absorb other bytes = .ok otherNext ∧
      kind.Changes fields value next other otherNext := by
  fun_induction foldFields kind.absorb value bytes generalizing other
  case case1 value =>
    refine .inr ⟨[], value, other, .nil, rfl, foldFields_nil, fun entry _ => ?_⟩
    exact .refl (gives_nil _) _ _
  case case2 value bytes full fault failed =>
    exact .inl ⟨fault, rfl, foldFields_of_error full failed⟩
  case case3 value bytes full field rest read fault refused =>
    obtain ⟨spelled, rfl, isField⟩ := readField_eq_ok_iff.1 read
    refine .inl ⟨fault, rfl, ?_⟩
    rcases alike kind field with ⟨same, refuses⟩ | ⟨put, absorbs, -⟩
    · rw [refuses] at refused
      rw [isField.foldFields_append, refuses]
      exact refused
    · rw [absorbs] at refused
      cases refused
  case case4 value bytes full field rest read next absorbed ih =>
    obtain ⟨spelled, rfl, isField⟩ := readField_eq_ok_iff.1 read
    rcases alike kind field with ⟨same, refuses⟩ | ⟨put, absorbs, changes⟩
    · rw [refuses] at absorbed
      cases absorbed
    · rw [absorbs] at absorbed
      cases absorbed
      rw [isField.foldFields_append, absorbs]
      rcases ih (put other) with ⟨fault, failed, otherFailed⟩ | ⟨fields, last, otherLast, message,
        read, otherRead, further⟩
      · exact .inl ⟨fault, failed, otherFailed⟩
      · exact .inr ⟨field :: fields, last, otherLast, .cons isField message, read, otherRead,
          (changes value other).cons further⟩

theorem decode_append_eq {first : Bytes} {earlier : kind.Value}
    (read : kind.decode first = .ok earlier) (second : Bytes) :
    kind.decode (first ++ second) = foldFields kind.absorb earlier second := by
  obtain ⟨fields, message, absorbed⟩ := foldFields_eq_ok_iff.1 read
  rw [MessageKind.decode, message.foldFields_append, absorbed]
  rfl

end Reading

section Order

variable {kind : MessageKind} {fields others : List Field} {start last : kind.Value}

def SameByNumber (fields others : List Field) : Prop :=
  ∀ number, fields.filter (·.number = number) = others.filter (·.number = number)

theorem SameByNumber.exists_split {field : Field} (same : SameByNumber (field :: fields) others) :
    ∃ before behind, others = before ++ field :: behind ∧
      (∀ other ∈ before, field.number ≠ other.number) ∧ SameByNumber fields (before ++ behind) := by
  have head : (field :: fields).filter (·.number = field.number) =
      field :: fields.filter (·.number = field.number) := List.filter_cons_of_pos (by simp)
  obtain ⟨before, behind, rfl, others, -, rest⟩ :=
    List.filter_eq_cons_iff.1 ((same field.number).symm.trans head)
  have apart : ∀ other ∈ before, field.number ≠ other.number :=
    fun other member number => others other member (by simp [number])
  refine ⟨before, behind, rfl, apart, fun number => ?_⟩
  by_cases here : field.number = number
  · subst here
    have nothing : before.filter (·.number = field.number) = [] :=
      List.filter_eq_nil_iff.2 others
    rw [List.filter_append, nothing, List.nil_append, rest]
  · simpa [here] using same number

theorem foldlM_cons_eq_ok_iff {field : Field} :
    (field :: fields).foldlM kind.absorb start = .ok last ↔
      ∃ next, kind.absorb start field = .ok next ∧ fields.foldlM kind.absorb next = .ok last := by
  rw [List.foldlM_cons]
  exact bind_eq_ok_iff

theorem foldlM_append_eq_ok_iff :
    (fields ++ others).foldlM kind.absorb start = .ok last ↔
      ∃ middle, fields.foldlM kind.absorb start = .ok middle ∧
        others.foldlM kind.absorb middle = .ok last := by
  rw [List.foldlM_append]
  exact bind_eq_ok_iff

theorem absorb_swap {first second : Field} {middle : kind.Value}
    (apart : first.number ≠ second.number) (absorbed : kind.absorb start first = .ok middle)
    (further : kind.absorb middle second = .ok last) :
    ∃ other, kind.absorb start second = .ok other ∧ kind.absorb other first = .ok last := by
  rcases alike kind first with ⟨fault, refuses⟩ | ⟨put, absorbs, changes⟩
  · rw [refuses] at absorbed
    cases absorbed
  rcases alike kind second with ⟨fault, refuses⟩ | ⟨putSecond, absorbsSecond, changesSecond⟩
  · rw [refuses] at further
    cases further
  rw [absorbs] at absorbed
  cases absorbed
  rw [absorbsSecond] at further
  cases further
  have same : putSecond (put start) = put (putSecond start) := by
    refine eq_of_agree fun entry member => ?_
    refine Slot.Changes.agree_of_swap ?_ (changes start (putSecond start) entry member)
      (changesSecond (put start) start entry member)
    rintro ⟨⟨_, given, number, -⟩, ⟨_, also, alsoNumber, -⟩⟩
    rw [List.mem_singleton.1 given] at number
    rw [List.mem_singleton.1 also] at alsoNumber
    exact apart (number.trans alsoNumber.symm)
  exact ⟨putSecond start, absorbsSecond start, same ▸ absorbs _⟩

theorem foldlM_move {field : Field} (apart : ∀ other ∈ fields, field.number ≠ other.number)
    (absorbed : (field :: fields).foldlM kind.absorb start = .ok last) :
    (fields ++ [field]).foldlM kind.absorb start = .ok last := by
  induction fields generalizing start with
  | nil => exact absorbed
  | cons other fields ih =>
    obtain ⟨apartHead, apartTail⟩ := List.forall_mem_cons.1 apart
    obtain ⟨middle, first, rest⟩ := foldlM_cons_eq_ok_iff.1 absorbed
    obtain ⟨next, second, later⟩ := foldlM_cons_eq_ok_iff.1 rest
    obtain ⟨swapped, otherFirst, fieldNext⟩ := absorb_swap apartHead first second
    have moved := ih apartTail (foldlM_cons_eq_ok_iff.2 ⟨next, fieldNext, later⟩)
    exact foldlM_cons_eq_ok_iff.2 ⟨swapped, otherFirst, moved⟩

theorem foldlM_of_sameByNumber (same : SameByNumber fields others)
    (absorbed : fields.foldlM kind.absorb start = .ok last) :
    others.foldlM kind.absorb start = .ok last := by
  induction fields generalizing others start with
  | nil =>
    cases others with
    | nil => exact absorbed
    | cons other others =>
      have missing := same other.number
      simp at missing
  | cons field fields ih =>
    -- The field is the first of its number among the others, behind fields of other numbers.
    obtain ⟨before, behind, rfl, apart, rest⟩ := same.exists_split
    obtain ⟨next, first, later⟩ := foldlM_cons_eq_ok_iff.1 absorbed
    obtain ⟨middle, readBefore, readBehind⟩ := foldlM_append_eq_ok_iff.1 (ih rest later)
    have moved := foldlM_move apart (foldlM_cons_eq_ok_iff.2 ⟨next, first, readBefore⟩)
    rw [List.append_cons]
    exact foldlM_append_eq_ok_iff.2 ⟨middle, moved, readBehind⟩

end Order

theorem parseBuildEvent_eq_error_iff {bytes : Bytes} {error : DriverError} :
    parseBuildEvent bytes = .error error ↔
      ∃ fault, MessageKind.event.decode bytes = .error fault ∧
        .brokenLog fault.message none = error := by
  change (MessageKind.event.decode bytes).mapError _ = _ ↔ _
  cases MessageKind.event.decode bytes with
  | error fault =>
    constructor
    · intro same
      cases same
      exact ⟨fault, rfl, rfl⟩
    · rintro ⟨_, same, rfl⟩
      cases same
      rfl
  | ok event => exact ⟨nofun, nofun⟩

/-- A message behind one that has been read is refused with the fault that it is refused with alone;
if it is read, its repeated fields join the earlier ones and its single fields replace them. Fields
of different numbers may change places. -/
theorem decode_append_joins (kind : MessageKind) (first second : Bytes) (earlier : kind.Value)
    (read : kind.decode first = .ok earlier) :
    (∀ fault, kind.decode (first ++ second) = .error fault ↔ kind.decode second = .error fault) ∧
    (∀ joined, kind.decode (first ++ second) = .ok joined →
      ∃ later, kind.decode second = .ok later ∧ kind.Joins second earlier later joined) ∧
    (kind = .event → ∀ error,
      parseBuildEvent (first ++ second) = .error error ↔ parseBuildEvent second = .error error) ∧
    ∀ fields other others, IsMessage first fields → IsMessage other others →
      SameByNumber fields others → kind.decode other = .ok earlier := by
  have refused : ∀ fault,
      kind.decode (first ++ second) = .error fault ↔ kind.decode second = .error fault := by
    intro fault
    rw [decode_append_eq read]
    rcases foldFields_alike second kind.empty earlier with
      ⟨found, failed, behindFailed⟩ | ⟨_, later, joined, _, alone, behind, _⟩
    · rw [MessageKind.decode, failed, behindFailed]
    · rw [MessageKind.decode, alone, behind]
      exact ⟨nofun, nofun⟩
  refine ⟨refused, fun joined whole => ?_, ?_, ?_⟩
  · rw [decode_append_eq read] at whole
    rcases foldFields_alike second kind.empty earlier with
      ⟨found, failed, behindFailed⟩ | ⟨fields, later, other, message, alone, behind, changes⟩
    · rw [behindFailed] at whole
      cases whole
    · rw [behind] at whole
      cases whole
      refine ⟨later, alone, fun entry member => ?_⟩
      rw [mentions_iff message]
      exact (changes entry member).joins (blank_empty kind entry member)
  · rintro rfl error
    rw [parseBuildEvent_eq_error_iff, parseBuildEvent_eq_error_iff]
    exact exists_congr fun fault => and_congr_left fun _ => refused fault
  · intro fields other others message otherMessage same
    rw [MessageKind.decode, message.foldFields_eq] at read
    rw [MessageKind.decode, otherMessage.foldFields_eq]
    exact foldlM_of_sameByNumber same read

/-- The last message, taken back by what follows, and another order of its fields. -/
theorem decode_append_joins_flag_taken_back :
    let first : Bytes := [0x0a, 0x00, 0xa0, 0x01, 0x01]
    let second : Bytes := [0x42, 0x00, 0xa0, 0x01, 0x00]
    let earlier : BuildEvent := { lastMessage := true }
    MessageKind.event.decode first = .ok earlier ∧
    MessageKind.event.decode (first ++ second) = .ok ({ completion := some {} } : BuildEvent) ∧
    (∀ fault, MessageKind.event.decode (first ++ second) = .error fault ↔
      MessageKind.event.decode second = .error fault) ∧
    (∀ joined, MessageKind.event.decode (first ++ second) = .ok joined →
      ∃ later, MessageKind.event.decode second = .ok later ∧
        MessageKind.event.Joins second earlier later joined) ∧
    (MessageKind.event = .event → ∀ error,
      parseBuildEvent (first ++ second) = .error error ↔ parseBuildEvent second = .error error) ∧
    ∀ fields other others, IsMessage first fields → IsMessage other others →
      SameByNumber fields others → MessageKind.event.decode other = .ok earlier := by
  intro first second earlier
  have read : MessageKind.event.decode first = .ok earlier := by cbv
  have joined : MessageKind.event.decode (first ++ second) =
      .ok ({ completion := some {} } : BuildEvent) := by cbv
  exact ⟨read, joined, decode_append_joins .event first second earlier read⟩

end GoMetadata
