import GoMetadata.BuildEvent
import GoMetadata.Proofs.BuildEvent.Fields
import GoMetadata.Proofs.Text.Utf8

/-!
Messages of build events are read back from their bytes. The fields of a message are absorbed in
the order in which they were written: a text or a nested message replaces what was there, a
repeated one joins those before it.
-/

namespace GoMetadata

open Wire

section Absorbing

variable {α σ : Type} {step : σ → Field → Except Fault σ} {state middle result : σ}

theorem foldlM_single {field : Field} (absorbed : step state field = .ok result) :
    [field].foldlM step state = .ok result := by
  rw [List.foldlM_cons, absorbed]
  rfl

theorem foldlM_append_ok {fields others : List Field}
    (first : fields.foldlM step state = .ok middle)
    (second : others.foldlM step middle = .ok result) :
    (fields ++ others).foldlM step state = .ok result := by
  rw [List.foldlM_append, first]
  exact second

theorem foldlM_flagFields {number : Nat} (set : Bool → σ) (flag : Bool)
    (absorbed : step (set false) ⟨number, .varint 1⟩ = .ok (set true)) :
    (flagFields number flag).foldlM step (set false) = .ok (set flag) := by
  cases flag with
  | false => rfl
  | true => exact foldlM_single absorbed

theorem foldlM_partFields {number : Nat} {encode : α → Bytes} (set : Option α → σ) (part : Option α)
    (absorbed : ∀ item, part = some item →
      step (set none) ⟨number, .delimited (encode item)⟩ = .ok (set (some item))) :
    (partFields number encode part).foldlM step (set none) = .ok (set part) := by
  cases part with
  | none => rfl
  | some item => exact foldlM_single (absorbed item rfl)

theorem foldlM_repeated (write : α → Field) (add : List α → σ) (items : List α)
    (absorbed : ∀ seen, ∀ item ∈ items, step (add seen) (write item) = .ok (add (seen ++ [item]))) :
    (items.map write).foldlM step (add []) = .ok (add items) := by
  have behind : ∀ seen, (items.map write).foldlM step (add seen) = .ok (add (seen ++ items)) := by
    induction items with
    | nil =>
      intro seen
      rw [List.append_nil]
      rfl
    | cons item items ih =>
      intro seen
      have later := ih (fun seen other member =>
        absorbed seen other (List.mem_cons_of_mem _ member)) (seen ++ [item])
      rw [List.append_assoc, List.singleton_append] at later
      exact foldlM_append_ok (foldlM_single (absorbed seen item List.mem_cons_self)) later
  exact behind []

end Absorbing

theorem decodeText_encode (text : String) : decodeText (Utf8.encode text) = .ok text := by
  rw [decodeText, Utf8.decode_eq_ok_iff.2 rfl]
  rfl

theorem SetId.decode_encode {id : SetId} (small : (SetId.encode id).length < 2 ^ 70) :
    SetId.decode (SetId.encode id) = .ok id := by
  rw [SetId.decode, (SetId.writes id small).foldFields_eq]
  exact foldlM_single (decodeText_encode id)

theorem decodeLabel_encode {label : String} (small : (encodeString 1 label).length < 2 ^ 70) :
    decodeLabel (encodeString 1 label) = .ok label := by
  rw [decodeLabel, (writes_string (by decide) (by decide) label small).foldFields_eq]
  exact foldlM_single (decodeText_encode label)

theorem File.decode_encode {file : File} (small : file.encode.length < 2 ^ 70) :
    File.decode file.encode = .ok file := by
  rw [File.decode, (File.writes file small).foldFields_eq]
  obtain ⟨name, directories, uri⟩ := file
  have named : File.absorb {} (textField 1 name) = .ok { name } := by
    rw [textField, File.absorb, decodeText_encode]
    rfl
  have located : (if uri = "" then [] else [textField 2 uri]).foldlM File.absorb { name } =
      .ok { name, uri } := by
    split
    next empty =>
      rw [empty]
      rfl
    next =>
      refine foldlM_single ?_
      rw [textField, File.absorb, decodeText_encode]
      rfl
  have placed : (directories.map (textField 4)).foldlM File.absorb { name, uri } =
      .ok { name, directories, uri } := by
    refine foldlM_repeated _ (fun directories => File.mk name directories uri) directories
      fun seen directory _ => ?_
    rw [textField, File.absorb, decodeText_encode]
    rfl
  exact foldlM_append_ok (foldlM_append_ok (foldlM_single named) located) placed

theorem NamedSet.decode_encode {set : NamedSet} (small : set.encode.length < 2 ^ 70) :
    NamedSet.decode set.encode = .ok set := by
  have writes := NamedSet.writes set
  rw [NamedSet.decode, (writes small).foldFields_eq]
  obtain ⟨files, children⟩ := set
  have filed : (files.map fun file => (⟨1, .delimited file.encode⟩ : Field)).foldlM
      NamedSet.absorb {} = .ok { files } := by
    refine foldlM_repeated _ (fun files => NamedSet.mk files []) files fun seen file member => ?_
    have inner : (⟨1, .delimited file.encode⟩ : Field) ∈ NamedSet.fields ⟨files, children⟩ :=
      List.mem_append_left _ (List.mem_map_of_mem member)
    rw [NamedSet.absorb, File.decode_encode (writes.length_content_lt small inner)]
    rfl
  have nested : (children.map fun id => (⟨2, .delimited (SetId.encode id)⟩ : Field)).foldlM
      NamedSet.absorb { files } = .ok { files, children } := by
    refine foldlM_repeated _ (NamedSet.mk files) children fun seen id member => ?_
    have inner : (⟨2, .delimited (SetId.encode id)⟩ : Field) ∈ NamedSet.fields ⟨files, children⟩ :=
      List.mem_append_right _ (List.mem_map_of_mem member)
    rw [NamedSet.absorb, SetId.decode_encode (writes.length_content_lt small inner)]
    rfl
  exact foldlM_append_ok filed nested

theorem OutputGroup.decode_encode {group : OutputGroup} (small : group.encode.length < 2 ^ 70) :
    OutputGroup.decode group.encode = .ok group := by
  have writes := OutputGroup.writes group
  rw [OutputGroup.decode, (writes small).foldFields_eq]
  obtain ⟨name, fileSets, incomplete⟩ := group
  have named : OutputGroup.absorb {} (textField 1 name) = .ok { name } := by
    rw [textField, OutputGroup.absorb, decodeText_encode]
    rfl
  have listed : (fileSets.map fun id => (⟨3, .delimited (SetId.encode id)⟩ : Field)).foldlM
      OutputGroup.absorb { name } = .ok { name, fileSets } := by
    refine foldlM_repeated _ (fun fileSets => OutputGroup.mk name fileSets false) fileSets
      fun seen id member => ?_
    have inner : (⟨3, .delimited (SetId.encode id)⟩ : Field) ∈
        OutputGroup.fields ⟨name, fileSets, incomplete⟩ :=
      List.mem_append_left _ (List.mem_append_right _ (List.mem_map_of_mem member))
    rw [OutputGroup.absorb, SetId.decode_encode (writes.length_content_lt small inner)]
    rfl
  exact foldlM_append_ok (foldlM_append_ok (foldlM_single named) listed)
    (foldlM_flagFields (OutputGroup.mk name fileSets) incomplete rfl)

theorem Completion.decode_encode {completion : Completion}
    (small : completion.encode.length < 2 ^ 70) :
    Completion.decode completion.encode = .ok completion := by
  have writes := Completion.writes completion
  rw [Completion.decode, (writes small).foldFields_eq]
  obtain ⟨success, outputGroups⟩ := completion
  have grouped : (outputGroups.map fun group => (⟨2, .delimited group.encode⟩ : Field)).foldlM
      Completion.absorb { success } = .ok { success, outputGroups } := by
    refine foldlM_repeated _ (Completion.mk success) outputGroups fun seen group member => ?_
    have inner : (⟨2, .delimited group.encode⟩ : Field) ∈
        Completion.fields ⟨success, outputGroups⟩ :=
      List.mem_append_right _ (List.mem_map_of_mem member)
    rw [Completion.absorb, OutputGroup.decode_encode (writes.length_content_lt small inner)]
    rfl
  exact foldlM_append_ok (foldlM_flagFields (fun success => Completion.mk success []) success rfl)
    grouped

theorem EventId.decode_encode {id : EventId} (small : id.encode.length < 2 ^ 70) :
    EventId.decode id.encode = .ok id := by
  have writes := EventId.writes id
  rw [EventId.decode, (writes small).foldFields_eq]
  obtain ⟨targetCompleted, namedSet⟩ := id
  have labelled : (partFields 5 (encodeString 1) targetCompleted).foldlM EventId.absorb {} =
      .ok { targetCompleted } := by
    refine foldlM_partFields (fun label => EventId.mk label none) targetCompleted ?_
    rintro label rfl
    have inner : (⟨5, .delimited (encodeString 1 label)⟩ : Field) ∈
        EventId.fields ⟨some label, namedSet⟩ := List.mem_append_left _ List.mem_cons_self
    rw [EventId.absorb, decodeLabel_encode (writes.length_content_lt small inner)]
    rfl
  have named : (partFields 13 SetId.encode namedSet).foldlM EventId.absorb { targetCompleted } =
      .ok { targetCompleted, namedSet } := by
    refine foldlM_partFields (EventId.mk targetCompleted) namedSet ?_
    rintro set rfl
    have inner : (⟨13, .delimited (SetId.encode set)⟩ : Field) ∈
        EventId.fields ⟨targetCompleted, some set⟩ := List.mem_append_right _ List.mem_cons_self
    rw [EventId.absorb, SetId.decode_encode (writes.length_content_lt small inner)]
    rfl
  exact foldlM_append_ok labelled named

theorem BuildEvent.decode_encode {event : BuildEvent} (small : event.encode.length < 2 ^ 70) :
    BuildEvent.decode event.encode = .ok event := by
  have writes := BuildEvent.writes event
  rw [BuildEvent.decode, (writes small).foldFields_eq]
  obtain ⟨id, lastMessage, definition, completion⟩ := event
  have identified : BuildEvent.absorb {} ⟨1, .delimited id.encode⟩ = .ok { id } := by
    have inner : (⟨1, .delimited id.encode⟩ : Field) ∈
        BuildEvent.fields ⟨id, lastMessage, definition, completion⟩ := List.mem_cons_self
    rw [BuildEvent.absorb, EventId.decode_encode (writes.length_content_lt small inner)]
    rfl
  have completed : (partFields 8 Completion.encode completion).foldlM BuildEvent.absorb { id } =
      .ok { id, completion } := by
    refine foldlM_partFields (BuildEvent.mk id false none) completion ?_
    rintro completion rfl
    have inner : (⟨8, .delimited completion.encode⟩ : Field) ∈
        BuildEvent.fields ⟨id, lastMessage, definition, some completion⟩ :=
      List.mem_append_left _ (List.mem_append_left _ (List.mem_append_right _ List.mem_cons_self))
    rw [BuildEvent.absorb, Completion.decode_encode (writes.length_content_lt small inner)]
    rfl
  have defined : (partFields 15 NamedSet.encode definition).foldlM BuildEvent.absorb
      { id, completion } = .ok { id, completion, definition } := by
    refine foldlM_partFields (fun definition => BuildEvent.mk id false definition completion)
      definition ?_
    rintro set rfl
    have inner : (⟨15, .delimited set.encode⟩ : Field) ∈
        BuildEvent.fields ⟨id, lastMessage, some set, completion⟩ :=
      List.mem_append_left _ (List.mem_append_right _ List.mem_cons_self)
    rw [BuildEvent.absorb, NamedSet.decode_encode (writes.length_content_lt small inner)]
    rfl
  exact foldlM_append_ok (foldlM_append_ok (foldlM_append_ok (foldlM_single identified) completed)
    defined) (foldlM_flagFields (fun last => BuildEvent.mk id last definition completion)
      lastMessage rfl)

/-- Every message that is written is read back, unless it is too long for its lengths to be read. -/
def ReadsBack {α ε : Type} (encode : α → Bytes) (decode : Bytes → Except ε α) : Prop :=
  ∀ message, (encode message).length < 2 ^ 70 → decode (encode message) = .ok message

theorem ReadsBack.injective {α ε : Type} {encode : α → Bytes} {decode : Bytes → Except ε α}
    (back : ReadsBack encode decode) {first second : α} (small : (encode first).length < 2 ^ 70)
    (same : encode first = encode second) : first = second := by
  have readFirst := back first small
  have readSecond := back second (same ▸ small)
  rw [← same, readFirst] at readSecond
  exact Except.ok.inj readSecond

theorem readsBack_parseBuildEvent : ReadsBack BuildEvent.encode parseBuildEvent := by
  intro event small
  rw [parseBuildEvent, BuildEvent.decode_encode small]
  rfl

/-- Messages of every kind are read back. Since nothing is lost, an event in which a part is absent
and one in which it is there, but empty, are written differently. -/
theorem messages_read_back :
    ReadsBack BuildEvent.encode parseBuildEvent ∧
    ReadsBack SetId.encode SetId.decode ∧
    ReadsBack File.encode File.decode ∧
    ReadsBack NamedSet.encode NamedSet.decode ∧
    ReadsBack OutputGroup.encode OutputGroup.decode ∧
    ReadsBack Completion.encode Completion.decode ∧
    ReadsBack EventId.encode EventId.decode ∧
    ∀ first second : BuildEvent, first.encode.length < 2 ^ 70 →
      first.encode = second.encode → first = second :=
  ⟨readsBack_parseBuildEvent, fun _ => SetId.decode_encode, fun _ => File.decode_encode,
    fun _ => NamedSet.decode_encode, fun _ => OutputGroup.decode_encode,
    fun _ => Completion.decode_encode, fun _ => EventId.decode_encode,
    fun _ _ => readsBack_parseBuildEvent.injective⟩

/-- An event whose parts are all there and empty. -/
theorem messages_read_back_empty_parts :
    let event : BuildEvent :=
      ⟨⟨some "", some ""⟩, true, some ⟨[{}], [""]⟩, some ⟨false, [⟨"", ["", ""], true⟩]⟩⟩
    event.encode.length < 2 ^ 70 ∧ parseBuildEvent event.encode = .ok event :=
  have small : _ < 2 ^ 70 := by decide +kernel
  ⟨small, messages_read_back.1 _ small⟩

end GoMetadata
