import GoMetadata.Proofs.FileSet.Observation
import GoMetadata.Proofs.Package.Loading
import GoMetadata.Session

/-!
What a response reports, in surroundings that never change. The packages are those with descriptors
among the files that the events of the build produce, each as the file of the least name has it, and
the roots are those of them that the targets ask for; both are in ascending order.
-/

namespace GoMetadata

theorem Dialogue.holdIn_bind {Ask : Type} {Reply : Ask → Type} {α β : Type} {m : Type → Type}
    [Monad m] [LawfulMonad m] (answer : (question : Ask) → m (Reply question))
    (dialogue : Dialogue Ask Reply α) (next : α → Dialogue Ask Reply β) :
    (dialogue.bind next).holdIn answer =
      dialogue.holdIn answer >>= fun result => (next result).holdIn answer := by
  induction dialogue with
  | done result => exact (pure_bind result fun result => (next result).holdIn answer).symm
  | ask question more ih =>
    simp only [Dialogue.bind, Dialogue.holdIn, LawfulMonad.bind_assoc]
    exact bind_congr fun reply => ih reply

namespace Session

/-! Every question has one answer, so the steps of a session succeed or fail like results. -/

section

variable (answer : (question : BuildService.Ask) → BuildService.Reply question)
variable {α β : Type}

def result (session : Session α) : Except Failure α :=
  session.run.holdIn (m := Id) answer

theorem result_pure (value : α) : result answer (pure value) = .ok value :=
  rfl

theorem result_ofResult (value : Except Failure α) :
    result answer (Exchange.ofResult value) = value :=
  rfl

theorem result_bind (session : Session α) (next : α → Session β) :
    result answer (session >>= next) =
      (result answer session).bind fun value => result answer (next value) := by
  have held := session.run.holdIn_bind (m := Id) answer (ExceptT.bindCont next)
  refine held.trans ?_
  change Dialogue.holdIn (m := Id) answer
    (ExceptT.bindCont next (session.run.holdIn (m := Id) answer)) = _
  rw [result]
  cases session.run.holdIn (m := Id) answer <;> rfl

theorem result_read (path : Path) : result answer (read path) = .ok (answer (.read path)) :=
  rfl

theorem result_build (group : String) (flags targets : List String) :
    result answer (build group flags targets) = answer (.build group flags targets) :=
  rfl

theorem result_tell (settings : Settings) (notice : Notice) :
    result answer (tell settings notice) = .ok () := by
  unfold tell
  split <;> rfl

theorem result_mapM (step : α → Session β) (values : List α) :
    result answer (values.mapM step) = values.mapM fun value => result answer (step value) := by
  induction values with
  | nil => rfl
  | cons value values ih =>
    simp only [List.mapM_cons, result_bind, ih, result_pure]
    rfl

theorem result_graphOfLog (group : String) (log : Bytes) :
    result answer (graphOfLog group log) =
      (FileSetGraph.observeLog group {} log).mapError fun halted => .reported halted.error :=
  result_ofResult answer _

theorem result_loadDescriptor (path : Path) :
    result answer (loadDescriptor path) = Descriptor.ofFile path (answer (.read path)) := by
  rw [loadDescriptor, result_bind, result_read]
  exact result_ofResult answer _

theorem result_loadAll (root : Path) (names : List String) :
    result answer (Descriptor.loadAll loadDescriptor root names) =
      Descriptor.loadFrom (fun path => answer (.read path)) root names := by
  unfold Descriptor.loadFrom Descriptor.loadAll
  simp only [result_bind, result_mapM, result_loadDescriptor, result_pure]
  rfl

/-- A run, as far as targets are known, fails like its build, its log or one of its files, or it
reports the packages of the files. -/
theorem result_respond (settings : Settings) (request : Request) (targets : List String) :
    result answer (respond settings request targets) = (do
      let log ←
        answer (.build settings.outputGroup (settings.buildFlags ++ request.buildFlags) targets)
      let graph ← (FileSetGraph.observeLog settings.outputGroup {} log).mapError
        fun halted => Failure.reported halted.error
      let descriptors ← Descriptor.loadFrom (fun path => answer (.read path)) settings.workspaceRoot
        graph.flatten
      let packages := PackageGraph.ofDescriptors descriptors
      return { roots := packages.selectRoots targets, packages := packages.sortedPackages }) := by
  unfold respond
  generalize settings.buildFlags ++ request.buildFlags = flags
  rw [result_bind, result_tell]
  -- Both branches go on in the same way, but only one shows the flags.
  by_cases given : flags ≠ []
  · simp only [if_pos given, result_bind, result_tell, result_build, result_graphOfLog,
      result_loadAll]
    rfl
  · simp only [if_neg given, result_bind, result_tell, result_build, result_graphOfLog,
      result_loadAll]
    rfl

end

structure Holds (answer : (question : BuildService.Ask) → BuildService.Reply question)
    (settings : Settings) (events : List BuildEvent) (name : String) (descriptor : Descriptor) :
    Prop where
  produced : Produces settings.outputGroup events name
  ending : hasEnding ".json" name = true
  read : Descriptor.inFile (fun path => answer (.read path)) settings.workspaceRoot name =
    .ok descriptor

/-- A response reports what the files hold that events produce. -/
structure Reports (answer : (question : BuildService.Ask) → BuildService.Reply question)
    (settings : Settings) (targets : List String) (events : List BuildEvent)
    (response : Response) : Prop where
  ascending : Text.Ascending (response.packages.map (·.id))
  ids : ∀ id, id ∈ response.packages.map (·.id) ↔
    ∃ name descriptor, Holds answer settings events name descriptor ∧ descriptor.id = id
  first : ∀ package ∈ response.packages, ∃ name descriptor,
    Holds answer settings events name descriptor ∧
    package = { descriptor with errors := package.errors } ∧
    ∀ other candidate, Holds answer settings events other candidate →
      candidate.id = package.id → name ≤ other
  rootsAscending : Text.Ascending response.roots
  roots : ∀ id, id ∈ response.roots ↔
    id ∈ response.packages.map (·.id) ∧ ∃ target ∈ targets, Label.selects target id = true
  readable : ∀ name, Produces settings.outputGroup events name → hasEnding ".json" name = true →
    ∃ descriptor, Holds answer settings events name descriptor

variable {answer : (question : BuildService.Ask) → BuildService.Reply question}
variable {settings : Settings} {request : Request} {targets : List String}

theorem result_respond_eq_ok_iff {response : Response} :
    result answer (respond settings request targets) = .ok response ↔
      ∃ log graph loaded,
        answer (.build settings.outputGroup (settings.buildFlags ++ request.buildFlags) targets) =
          .ok log ∧
        FileSetGraph.observeLog settings.outputGroup {} log = .ok graph ∧
        (descriptorFiles graph.flatten).map
          (Descriptor.inFile (fun path => answer (.read path)) settings.workspaceRoot) =
            loaded.map .ok ∧
        let packages := PackageGraph.ofDescriptors (Descriptor.firsts loaded)
        response =
          { roots := packages.selectRoots targets, packages := packages.sortedPackages } := by
  rw [result_respond]
  constructor
  · intro responded
    obtain ⟨log, built, responded⟩ := Wire.bind_eq_ok_iff.1 responded
    obtain ⟨graph, observed, responded⟩ := Wire.bind_eq_ok_iff.1 responded
    obtain ⟨descriptors, load, responded⟩ := Wire.bind_eq_ok_iff.1 responded
    obtain ⟨loaded, mapped, rfl⟩ := Descriptor.loadFrom_eq_ok_iff.1 load
    cases responded
    exact ⟨log, graph, loaded, built, Wire.mapError_eq_ok_iff.1 observed, mapped, rfl⟩
  · rintro ⟨log, graph, loaded, built, observed, mapped, rfl⟩
    have load := Descriptor.loadFrom_eq_ok_iff.2 ⟨loaded, mapped, rfl⟩
    rw [built]
    simp only [bind, Except.bind, Wire.mapError_eq_ok_iff.2 observed, load]
    rfl

/-- The files of a graph that knows what events tell hold the descriptors that are loaded. -/
theorem holds_iff {events : List BuildEvent} {files : List String}
    (produced : ∀ name, name ∈ files ↔ Produces settings.outputGroup events name) {name : String}
    {descriptor : Descriptor} :
    Holds answer settings events name descriptor ↔
      name ∈ descriptorFiles files ∧
      Descriptor.inFile (fun path => answer (.read path)) settings.workspaceRoot name =
        .ok descriptor := by
  rw [mem_descriptorFiles_iff, produced, and_assoc]
  exact ⟨fun holds => ⟨holds.produced, holds.ending, holds.read⟩,
    fun ⟨file, ending, read⟩ => ⟨file, ending, read⟩⟩

theorem exists_holds_of_loaded {events : List BuildEvent} {files : List String}
    {loaded : List Descriptor}
    (produced : ∀ name, name ∈ files ↔ Produces settings.outputGroup events name)
    (mapped : (descriptorFiles files).map
      (Descriptor.inFile (fun path => answer (.read path)) settings.workspaceRoot) =
        loaded.map .ok) :
    ∀ name, Produces settings.outputGroup events name → hasEnding ".json" name = true →
      ∃ descriptor, Holds answer settings events name descriptor := by
  intro name produces ending
  have file : name ∈ descriptorFiles files :=
    mem_descriptorFiles_iff.2 ⟨(produced name).2 produces, ending⟩
  obtain ⟨descriptor, read⟩ := Descriptor.exists_inFile_of_mem mapped file
  exact ⟨descriptor, produces, ending, read⟩

theorem reports_of_loaded {events : List BuildEvent} {files : List String}
    {loaded : List Descriptor} (ascending : Text.Ascending files)
    (produced : ∀ name, name ∈ files ↔ Produces settings.outputGroup events name)
    (mapped : (descriptorFiles files).map
      (Descriptor.inFile (fun path => answer (.read path)) settings.workspaceRoot) =
        loaded.map .ok) :
    let packages := PackageGraph.ofDescriptors (Descriptor.firsts loaded)
    Reports answer settings targets events
      { roots := packages.selectRoots targets, packages := packages.sortedPackages } := by
  intro packages
  constructor
  case ascending =>
    rw [PackageGraph.map_id_sortedPackages]
    exact Text.ascending_sortDistinct _
  case ids =>
    intro id
    rw [PackageGraph.mem_ids_sortedPackages_iff, PackageGraph.mem_ids_ofDescriptors_iff,
      Descriptor.exists_id_firsts_iff]
    constructor
    · rintro ⟨descriptor, member, same⟩
      obtain ⟨name, file, read⟩ := (Descriptor.mem_loaded_iff mapped).1 member
      exact ⟨name, descriptor, (holds_iff produced).2 ⟨file, read⟩, same⟩
    · rintro ⟨name, descriptor, holds, same⟩
      obtain ⟨file, read⟩ := (holds_iff produced).1 holds
      exact ⟨descriptor, (Descriptor.mem_loaded_iff mapped).2 ⟨name, file, read⟩, same⟩
  case first =>
    intro package member
    obtain ⟨descriptor, first, same⟩ := PackageGraph.exists_first_of_mem_sortedPackages member
    rw [Descriptor.find?_firsts] at first
    obtain ⟨name, file, read, least⟩ :=
      Descriptor.exists_least_of_find? (ascending_descriptorFiles ascending) mapped first
    refine ⟨name, descriptor, (holds_iff produced).2 ⟨file, read⟩, same, ?_⟩
    intro other candidate holds sameId
    obtain ⟨otherFile, otherRead⟩ := (holds_iff produced).1 holds
    exact least other otherFile candidate otherRead (beq_iff_eq.2 sameId)
  case rootsAscending => exact Text.ascending_sortDistinct _
  case roots =>
    intro id
    rw [PackageGraph.mem_ids_sortedPackages_iff]
    exact PackageGraph.mem_selectRoots_iff
  case readable => exact exists_holds_of_loaded produced mapped

theorem respond_succeeds_iff :
    (∃ response, result answer (respond settings request targets) = .ok response) ↔
      ∃ log events,
        answer (.build settings.outputGroup (settings.buildFlags ++ request.buildFlags) targets) =
          .ok log ∧
        Tells log events ∧ (∀ event ∈ events, FileSetGraph.failedTarget? event = none) ∧
        ∀ name, Produces settings.outputGroup events name → hasEnding ".json" name = true →
          ∃ descriptor, Holds answer settings events name descriptor := by
  constructor
  · rintro ⟨response, responded⟩
    obtain ⟨log, graph, loaded, built, observed, mapped, -⟩ :=
      result_respond_eq_ok_iff.1 responded
    obtain ⟨events, tells, succeeded, rfl⟩ := FileSetGraph.observeLog_eq_ok_iff.1 observed
    refine ⟨log, events, built, tells, succeeded, ?_⟩
    exact exists_holds_of_loaded (fun _ => FileSetGraph.mem_flatten_after_iff) mapped
  · rintro ⟨log, events, built, tells, succeeded, readable⟩
    let graph := FileSetGraph.after settings.outputGroup events
    have observed : FileSetGraph.observeLog settings.outputGroup {} log = .ok graph :=
      FileSetGraph.observeLog_eq_ok_iff.2 ⟨events, tells, succeeded, rfl⟩
    have held : ∀ name ∈ descriptorFiles graph.flatten, ∃ descriptor,
        Descriptor.inFile (fun path => answer (.read path)) settings.workspaceRoot name =
          .ok descriptor := by
      intro name member
      obtain ⟨file, ending⟩ := mem_descriptorFiles_iff.1 member
      obtain ⟨descriptor, holds⟩ :=
        readable name (FileSetGraph.mem_flatten_after_iff.1 file) ending
      exact ⟨descriptor, holds.read⟩
    obtain ⟨loaded, mapped⟩ := Descriptor.exists_loaded_of_forall held
    exact ⟨_, result_respond_eq_ok_iff.2 ⟨log, graph, loaded, built, observed, mapped, rfl⟩⟩

/-- A run that yields a response has built the targets; the log tells events, and the response
reports the packages in the files that these produce. -/
theorem reports_of_respond {response : Response}
    (responded : result answer (respond settings request targets) = .ok response) :
    ∃ log events,
      answer (.build settings.outputGroup (settings.buildFlags ++ request.buildFlags) targets) =
        .ok log ∧
      Tells log events ∧ Reports answer settings targets events response := by
  obtain ⟨log, graph, loaded, built, observed, mapped, rfl⟩ :=
    result_respond_eq_ok_iff.1 responded
  obtain ⟨events, tells, -, rfl⟩ := FileSetGraph.observeLog_eq_ok_iff.1 observed
  refine ⟨log, events, built, tells, ?_⟩
  exact reports_of_loaded (Text.ascending_sortDistinct _)
    (fun _ => FileSetGraph.mem_flatten_after_iff) mapped

def sharedIdEvents : List BuildEvent :=
  [⟨⟨some "//a", none⟩, false, none, some ⟨true, [⟨"data", ["0"], false⟩]⟩⟩,
    ⟨⟨none, some "0"⟩, true, some ⟨[{ name := "b.json" }, { name := "a.json" }], []⟩, none⟩]

def sharedIdAnswer : (question : BuildService.Ask) → BuildService.Reply question
  | .query _ => .ok ""
  | .build _ _ _ => .ok (encodeLog sharedIdEvents)
  | .read path => .ok (Utf8.encode ("\x7b\"ID\":\"//a\",\"Name\":\"" ++ path.text ++ "\"\x7d"))
  | .print _ => ()

def sharedIdGraph : FileSetGraph :=
  ⟨[("0", ["b.json", "a.json"])], [("0", [])], ["0"], 2, 1⟩

def sharedIdSettings : Settings := { outputGroup := "data", workspaceRoot := .ofText "/w" }

/-- Of two files with one id the lesser name stands. -/
theorem reports_of_respond_shared_id :
    let response : Response :=
      { roots := ["//a"], packages := [{ id := "//a", name := "/w/a.json" }] }
    result sharedIdAnswer (respond sharedIdSettings {} ["//a:a"]) = .ok response ∧
    ∃ log events, sharedIdAnswer (.build "data" [] ["//a:a"]) = .ok log ∧
      Tells log events ∧ Reports sharedIdAnswer sharedIdSettings ["//a:a"] events response := by
  intro response
  have tells : Tells (encodeLog sharedIdEvents) sharedIdEvents := by
    have written := tells_encodeLog sharedIdEvents.dropLast (sharedIdEvents.getLast (by decide))
      (by decide +kernel) (by decide +kernel) (by decide +kernel) []
    rwa [List.append_nil] at written
  have observed : FileSetGraph.observeLog "data" {} (encodeLog sharedIdEvents) =
      .ok sharedIdGraph :=
    FileSetGraph.observeLogFrom_eq_ok_iff.2 ⟨sharedIdEvents, tells, rfl⟩
  have walked : sharedIdGraph.walkRoots = ⟨["0"], 1⟩ := by
    simp [FileSetGraph.walkRoots, FileSetGraph.walkFrom, recorded, sharedIdGraph]
  have files : sharedIdGraph.flatten = ["a.json", "b.json"] := by
    rw [FileSetGraph.flatten, walked]
    decide +kernel
  have held : ∀ name ∈ ["a.json", "b.json"],
      Descriptor.inFile (fun path => sharedIdAnswer (.read path)) (.ofText "/w") name =
        .ok { id := "//a", name := "/w/" ++ name } := by
    intro name member
    refine Descriptor.ofFile_eq_ok_iff.2
      ⟨"\x7b\"ID\":\"//a\",\"Name\":\"/w/" ++ name ++ "\"\x7d",
        [("ID", .text "//a"), ("Name", .text ("/w/" ++ name))], ?_, ?_, rfl⟩
    · rcases List.mem_pair.1 member with rfl | rfl <;> decide +kernel
    · rcases List.mem_pair.1 member with rfl | rfl <;> cbv
  have mapped : (descriptorFiles ["a.json", "b.json"]).map
      (Descriptor.inFile (fun path => sharedIdAnswer (.read path)) (.ofText "/w")) =
        [{ id := "//a", name := "/w/a.json" }, { id := "//a", name := "/w/b.json" }].map .ok := by
    have names : descriptorFiles ["a.json", "b.json"] = ["a.json", "b.json"] := by decide +kernel
    rw [names, List.map_congr_left held]
    rfl
  rw [← files] at mapped
  have responded : result sharedIdAnswer (respond sharedIdSettings {} ["//a:a"]) = .ok response :=
    result_respond_eq_ok_iff.2 ⟨_, _, _, rfl, observed, mapped, by decide +kernel⟩
  exact ⟨responded, reports_of_respond responded⟩

end Session

end GoMetadata
