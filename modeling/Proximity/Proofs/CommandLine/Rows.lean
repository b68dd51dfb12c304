import Proximity.CommandLine.Run
import Proximity.Proofs.Configuration
import Proximity.Proofs.Requests.Durability
import Proximity.Proofs.Staging

/-!
# The rows of a file and the vectors of an index

A command that makes an index lays the rows of a vector file end to end and cuts
them again, at the width of the dimension it was given: that of an option, of a
template, or of the rows themselves.  The index stores what was cut, one vector
under each id.  If the dimension is that of the rows the cut gives the rows
back, so the index holds what the file lists.  Otherwise the cut goes across
rows, and as long as the number of ids agrees with it nothing is refused.

## Main results

* `HostFile.of_readVectors`, `HostFile.Uniform.readVectors` — the files that a
  command reads.
* `HostFile.Indexed`, `HostFile.Uniform.indexed` — what an index holds of a file.
* `build_indexed`, `fill_indexed`, `run_indexed` — what a run leaves at its output
  path.
* `run_acrossRows` — a run that stores other vectors than the rows.
-/

namespace Proximity.CommandLine

/-! ## Files -/

/-- A vector file of some kind of vectors. -/
inductive HostFile where
  | float (file : VectorFile Single)
  | binary (file : VectorFile UInt8)

namespace HostFile

def kind : HostFile → Kind
  | .float _ => .float
  | .binary _ => .binary

def ids : HostFile → Array Int64
  | .float file => file.ids.toArray
  | .binary file => file.ids.toArray

/-- The number of rows. -/
def count : HostFile → Nat
  | .float file => file.rows.length
  | .binary file => file.rows.length

/-- The dimension of the rows, if there are any. -/
def dimension? : HostFile → Option Nat
  | .float file => file.dimension?
  | .binary file => file.dimension?

/-- The rows end to end. -/
def vectors : HostFile → HostVectors
  | .float file => .float ⟨.transferred, backToBack file.rows⟩
  | .binary file => .binary ⟨.transferred, backToBack file.rows⟩

/-- The rows have one width. -/
def Uniform : HostFile → Prop
  | .float file => file.Uniform
  | .binary file => file.Uniform

/-- The vector file at a path. -/
def at? (files : FileTree) (path : String) : Kind → Option HostFile
  | .float => ((files.text? path).bind VectorFile.read?).map .float
  | .binary => ((files.text? path).bind VectorFile.read?).map .binary

theorem vectors_kind (file : HostFile) : file.vectors.kind = file.kind := by
  cases file <;> rfl

private theorem of_readText {files : FileTree} {purpose : Purpose} {path text : String}
    (h : readText files purpose path = .ok text) : files.text? path = some text := by
  rw [readText] at h
  split at h
  · rename_i found hfound
    rw [hfound, Except.ok.inj h]
  · cases h

private theorem of_stageFile {E : Type} [HostElement E] {memoryLimit : Nat} {path text : String}
    {staged : StagedVectors} (h : stageFile E memoryLimit path text = .ok staged) :
    ∃ file : VectorFile E, VectorFile.read? text = some file ∧ file.Uniform ∧
      staged = ⟨file.ids.toArray, HostElement.vectors ⟨.transferred, backToBack file.rows⟩,
        file.dimension?⟩ := by
  rw [stageFile] at h
  split at h
  · cases h
  · rename_i file hfile
    obtain ⟨hstaged, huniform⟩ := VectorFile.of_stage (Except.mapError_eq_ok_iff.1 h)
    exact ⟨file, hfile, huniform, hstaged⟩

/-- A command reads the ids of a vector file, its rows end to end, and their
dimension, under any memory limit. -/
theorem of_readVectors {files : FileTree} {memoryLimit : Nat} {kind : Kind} {path : String}
    {staged : StagedVectors} (h : readVectors files memoryLimit kind path = .ok staged) :
    ∃ file, at? files path kind = some file ∧ file.Uniform ∧
      staged = ⟨file.ids, file.vectors, file.dimension?⟩ := by
  obtain ⟨text, htext, h⟩ := Except.bind_eq_ok_iff.1 h
  have hfound := of_readText htext
  cases kind with
  | float =>
      obtain ⟨file, hfile, huniform, rfl⟩ := of_stageFile h
      exact ⟨.float file, by rw [at?, hfound, Option.bind_some, hfile]; rfl, huniform, rfl⟩
  | binary =>
      obtain ⟨file, hfile, huniform, rfl⟩ := of_stageFile h
      exact ⟨.binary file, by rw [at?, hfound, Option.bind_some, hfile]; rfl, huniform, rfl⟩

private theorem stageFile_of_uniform {E : Type} [HostElement E] {file : VectorFile E}
    (h : file.Uniform) {text : String} (hread : VectorFile.read? text = some file)
    (memoryLimit : Nat) (path : String) :
    stageFile E memoryLimit path text = .ok ⟨file.ids.toArray,
      HostElement.vectors ⟨.transferred, backToBack file.rows⟩, file.dimension?⟩ := by
  rw [stageFile, hread]
  dsimp only
  rw [h.stage]
  rfl

/-- A command reads every file whose rows have one width. -/
theorem Uniform.readVectors {file : HostFile} (h : file.Uniform) {files : FileTree} {path : String}
    {kind : Kind} (hfile : at? files path kind = some file) (memoryLimit : Nat) :
    readVectors files memoryLimit kind path = .ok ⟨file.ids, file.vectors, file.dimension?⟩ := by
  cases kind with
  | float =>
      obtain ⟨found, hfound, rfl⟩ := Option.map_eq_some_iff.1 hfile
      obtain ⟨text, htext, hread⟩ := Option.bind_eq_some_iff.1 hfound
      exact Except.bind_eq_ok_iff.2 ⟨text, by rw [readText, htext],
        stageFile_of_uniform h hread memoryLimit path⟩
  | binary =>
      obtain ⟨found, hfound, rfl⟩ := Option.map_eq_some_iff.1 hfile
      obtain ⟨text, htext, hread⟩ := Option.bind_eq_some_iff.1 hfound
      exact Except.bind_eq_ok_iff.2 ⟨text, by rw [readText, htext],
        stageFile_of_uniform h hread memoryLimit path⟩

/-! ## Indexes of files -/

/-- An artifact stores the rows of a file, under its ids. -/
def RowsIn (file : HostFile) (a : Artifact) : Prop :=
  match file, a with
  | .float file, .float (.mapped map) => map.ids = file.ids.toArray ∧ map.index.Stores file.rows
  | .binary file, .binary (.mapped map) => map.ids = file.ids.toArray ∧ map.index.Stores file.rows
  | _, _ => False

/-- What an artifact of some dimension holds of a file.  It stores the rows end to
end, cut at the width of its dimension, one vector under each id.  If that is
the dimension of the rows, it stores the rows. -/
structure Indexed (file : HostFile) (dimension : Nat) (a : Artifact) : Prop where
  dimension : a.dimension = dimension
  cut : ∃ unitLength, file.kind.unitLength a.dimension = .ok unitLength ∧
    file.ids.size = file.vectors.size / unitLength ∧ a.StoresUnder file.ids unitLength file.vectors
  rows : file.dimension? = some a.dimension →
    file.ids.size = file.count ∧ a.total = file.count ∧ file.RowsIn a

/-- What was made of the rows end to end is an index of the file. -/
theorem Uniform.indexed {file : HostFile} (h : file.Uniform) {a : Artifact} {spaceType : SpaceType}
    {dimension : Nat} {settings : Settings}
    (hmade : a.MadeOf spaceType dimension settings file.vectors file.ids) :
    file.Indexed dimension a := by
  obtain ⟨unitLength, hwidth, hids, hstores⟩ := hmade.stores
  rw [file.vectors_kind] at hwidth
  refine ⟨hmade.dimension, ⟨unitLength, hwidth, hids, hstores⟩, fun hdimension => ?_⟩
  cases file with
  | float file =>
      have hcount := hids.trans (VectorFile.Uniform.size_div_eq h hdimension hwidth)
      rcases a with (index | map) | (index | map)
      case float.mapped =>
        obtain ⟨hmap, hstored⟩ := hstores
        rw [VectorFile.Uniform.vectorsOf_eq h hdimension hwidth] at hstored
        exact ⟨hcount, hstored.total, hmap, hstored⟩
      all_goals exact hstores.elim
  | binary file =>
      have hcount := hids.trans (VectorFile.Uniform.size_div_eq h hdimension hwidth)
      rcases a with (index | map) | (index | map)
      case binary.mapped =>
        obtain ⟨hmap, hstored⟩ := hstores
        rw [VectorFile.Uniform.vectorsOf_eq h hdimension hwidth] at hstored
        exact ⟨hcount, hstored.total, hmap, hstored⟩
      all_goals exact hstores.elim

/-- An index of a file lies at a path, and is loaded from there. -/
def WrittenTo (file : HostFile) (dimension : Nat) (files : FileTree) (path : String) : Prop :=
  ∃ a, file.Indexed dimension a ∧ files.bytes? path = some a.toBytes ∧
    (a.Storable → files.load path = .ok a)

end HostFile

/-! ## Commands -/

/-- A job asks for the dimension of its option, or else for that of the rows. -/
theorem of_jobPrepare {job : Job} {files : FileTree} {memoryLimit : Nat} {request : IndexRequest}
    {staged : StagedVectors} (h : job.prepare files memoryLimit = .ok (request, staged)) :
    ∃ file, HostFile.at? files job.input job.spaceType.kind = some file ∧ file.Uniform ∧
      staged = ⟨file.ids, file.vectors, file.dimension?⟩ ∧
      (job.dimension? <|> file.dimension?) = some request.dimension := by
  obtain ⟨parameters, -, h⟩ := Except.bind_eq_ok_iff.1 h
  obtain ⟨read, hread, h⟩ := Except.bind_eq_ok_iff.1 h
  obtain ⟨file, hfile, huniform, rfl⟩ := HostFile.of_readVectors hread
  dsimp only at h
  split at h
  · cases h
  · rename_i dimension hdimension
    obtain ⟨rfl, rfl⟩ := Prod.mk.inj (Except.ok.inj h)
    exact ⟨file, hfile, huniform, rfl, hdimension⟩

theorem of_fillPrepare {job : FillJob} {files : FileTree} {memoryLimit : Nat}
    {template : List UInt8} {staged : StagedVectors}
    (h : job.prepare files memoryLimit = .ok (template, staged)) :
    ∃ held file, files.bytes? job.template = some template ∧
      Artifact.ofBytes template = .ok held ∧
      HostFile.at? files job.input held.kind = some file ∧ file.Uniform ∧
      staged = ⟨file.ids, file.vectors, file.dimension?⟩ := by
  obtain ⟨bytes, hbytes, h⟩ := Except.bind_eq_ok_iff.1 h
  obtain ⟨held, hheld, h⟩ := Except.bind_eq_ok_iff.1 h
  obtain ⟨read, hread, h⟩ := Except.bind_eq_ok_iff.1 h
  obtain ⟨rfl, rfl⟩ := Prod.mk.inj (Except.ok.inj h)
  obtain ⟨file, hfile, huniform, rfl⟩ := HostFile.of_readVectors hread
  refine ⟨held, file, ?_, Except.mapError_eq_ok_iff.1 hheld, hfile, huniform, rfl⟩
  rw [readBytes] at hbytes
  split at hbytes
  · rename_i found hfound
    rw [hfound, Except.ok.inj hbytes]
  · cases hbytes

private theorem of_built {outcome : Except Error Summary} {failure : Error → Failure}
    {summary : Summary}
    (h : (outcome.mapError failure).map Report.built = .ok (.built summary)) :
    outcome = .ok summary := by
  obtain ⟨found, hfound, heq⟩ := Except.map_eq_ok_iff.1 h
  obtain rfl := Report.built.inj heq
  exact Except.mapError_eq_ok_iff.1 hfound

/-- A command whose job was prepared makes and stores an index. -/
theorem build_of_prepare {e : Engine} {files : FileTree} {job : Job} {request : IndexRequest}
    {staged : StagedVectors}
    (h : job.prepare files e.config.transferLimit = .ok (request, staged)) :
    build e files job =
      ((e.build files request staged.vectors staged.ids job.output job.threads .nothing).2.1,
        ((e.build files request staged.vectors staged.ids job.output job.threads
          .nothing).2.2.outcome.mapError (.building job.description)).map .built) := by
  rw [build, h]

theorem fill_of_prepare {e : Engine} {files : FileTree} {job : FillJob} {template : List UInt8}
    {staged : StagedVectors}
    (h : job.prepare files e.config.transferLimit = .ok (template, staged)) :
    fill e files job =
      ((e.buildFromTemplate files template staged.vectors staged.ids job.output job.threads
          .nothing).2.1,
        ((e.buildFromTemplate files template staged.vectors staged.ids job.output job.threads
          .nothing).2.2.outcome.mapError (.filling job.template)).map .built) := by
  rw [fill, h]

/-- A job of which an artifact can be made is done where that can be written. -/
theorem build_done {e : Engine} {files : FileTree} {job : Job} {request : IndexRequest}
    {staged : StagedVectors} {a : Artifact} {summary : Summary}
    (h : job.prepare files e.config.transferLimit = .ok (request, staged))
    (hmade : (Request.makeNew e.config.indexes request staged.vectors staged.ids
      job.output).outcome = .ok (a, summary))
    (hfree : files.failsAt? job.output e.config.syncWrites none = none) :
    ∃ files', Command.run e files (.build job) = (files', .ok (.built summary)) ∧
      files'.bytes? job.output = some a.toBytes := by
  have houtcome : (e.build files request staged.vectors staged.ids job.output job.threads
      .nothing).2.2.outcome = .ok summary :=
    Engine.build_outcome hmade (e.workersStage_none job.threads) hfree
  obtain ⟨stored, hsame, -, hstored⟩ := Engine.of_build houtcome
  obtain rfl : a = stored := (Prod.mk.inj (Except.ok.inj (hmade.symm.trans hsame))).1
  refine ⟨_, ?_, hstored⟩
  rw [Command.run, build_of_prepare h, houtcome]
  rfl

theorem fill_done {e : Engine} {files : FileTree} {job : FillJob} {template : List UInt8}
    {staged : StagedVectors} {a : Artifact} {summary : Summary}
    (h : job.prepare files e.config.transferLimit = .ok (template, staged))
    (hmade : (Request.fillTemplate template staged.vectors staged.ids job.output).outcome =
      .ok (a, summary))
    (hfree : files.failsAt? job.output e.config.syncWrites none = none) :
    ∃ files', Command.run e files (.fill job) = (files', .ok (.built summary)) ∧
      files'.bytes? job.output = some a.toBytes := by
  have houtcome : (e.buildFromTemplate files template staged.vectors staged.ids job.output
      job.threads .nothing).2.2.outcome = .ok summary := Engine.buildFromTemplate_outcome hmade
        (e.workersStage_none job.threads) hfree
  obtain ⟨stored, hsame, -, hstored⟩ := Engine.of_buildFromTemplate houtcome
  obtain rfl : a = stored := (Prod.mk.inj (Except.ok.inj (hmade.symm.trans hsame))).1
  refine ⟨_, ?_, hstored⟩
  rw [Command.run, fill_of_prepare h, houtcome]
  rfl

/-- A command that built an index read a file, and left an index of that file at
the dimension of its option, or else of the rows. -/
theorem build_indexed {e : Engine} (he : e.Reached) {files files' : FileTree} {job : Job}
    {summary : Summary} (h : build e files job = (files', .ok (.built summary))) :
    ∃ file dimension, HostFile.at? files job.input job.spaceType.kind = some file ∧
      file.Uniform ∧ (job.dimension? <|> file.dimension?) = some dimension ∧
      (dimension < Count.bound → file.WrittenTo dimension files' job.output) := by
  cases hprepare : job.prepare files e.config.transferLimit with
  | error failure =>
      rw [build, hprepare] at h
      cases (Prod.mk.inj h).2
  | ok prepared =>
      obtain ⟨request, staged⟩ := prepared
      obtain ⟨file, hfile, huniform, rfl, hdimension⟩ := of_jobPrepare hprepare
      rw [build_of_prepare hprepare] at h
      obtain ⟨rfl, hok⟩ := Prod.mk.inj h
      refine ⟨file, request.dimension, hfile, huniform, hdimension, fun hbound => ?_⟩
      obtain ⟨a, hmade, -, hstored⟩ := Engine.of_build (of_built hok)
      obtain ⟨-, -, blank, -, -, -, hblank, -, hfilled⟩ :=
        Request.of_makeNew he.sound.fits hbound hmade
      have hindexed := huniform.indexed hfilled.madeOf
      rw [hblank] at hindexed
      exact ⟨a, hindexed, hstored, fun hstorable =>
        FileTree.load_of_bytes? hstored (hfilled.reload hstorable)⟩

/-- A command that filled a template read a file, and left an index of that file at
the dimension of the template. -/
theorem fill_indexed {e : Engine} {files files' : FileTree} {job : FillJob} {summary : Summary}
    (h : fill e files job = (files', .ok (.built summary))) :
    ∃ template held file, files.bytes? job.template = some template ∧
      Artifact.ofBytes template = .ok held ∧
      HostFile.at? files job.input held.kind = some file ∧ file.Uniform ∧
      file.WrittenTo held.dimension files' job.output := by
  cases hprepare : job.prepare files e.config.transferLimit with
  | error failure =>
      rw [fill, hprepare] at h
      cases (Prod.mk.inj h).2
  | ok prepared =>
      obtain ⟨template, staged⟩ := prepared
      obtain ⟨held, file, hbytes, hheld, hfile, huniform, rfl⟩ := of_fillPrepare hprepare
      rw [fill_of_prepare hprepare] at h
      obtain ⟨rfl, hok⟩ := Prod.mk.inj h
      refine ⟨template, held, file, hbytes, hheld, hfile, huniform, ?_⟩
      obtain ⟨a, hmade, -, hstored⟩ := Engine.of_buildFromTemplate (of_built hok)
      obtain ⟨blank, hblank, hfilled⟩ := Request.of_fillTemplate hmade
      obtain rfl : held = blank := Except.ok.inj (hheld.symm.trans hblank)
      exact ⟨a, huniform.indexed hfilled.madeOf, hstored, fun hstorable =>
        FileTree.load_of_bytes? hstored (hfilled.reload hstorable)⟩

/-- Other commands build no index. -/
theorem train_ne_built (e : Engine) (files : FileTree) (job : Job) (summary : Summary) :
    (train e files job).2 ≠ .ok (.built summary) := by
  intro h
  rw [train] at h
  split at h
  · cases h
  · split at h
    · cases h
    · split at h
      · cases h
      · cases h

theorem search_ne_built (e : Engine) (files : FileTree) (job : SearchJob) (summary : Summary) :
    search e files job ≠ .ok (.built summary) := by
  intro h
  obtain ⟨handle, -, h⟩ := Except.bind_eq_ok_iff.1 h
  obtain ⟨artifact, -, h⟩ := Except.bind_eq_ok_iff.1 h
  obtain ⟨query, -, h⟩ := Except.bind_eq_ok_iff.1 h
  obtain ⟨results, -, h⟩ := Except.bind_eq_ok_iff.1 h
  cases h

theorem describe_ne_built (files : FileTree) (path : String) (summary : Summary) :
    describe files path ≠ .ok (.built summary) := by
  intro h
  obtain ⟨bytes, -, h⟩ := Except.bind_eq_ok_iff.1 h
  obtain ⟨artifact, -, h⟩ := Except.bind_eq_ok_iff.1 h
  cases h

/-! ## Runs -/

/-- Every configuration that is read makes a sound engine. -/
theorem reached_of_readConfig {env : Config.Environment} {files : FileTree}
    {path? : Option String} {config : Config} (h : readConfig env files path? = .ok config)
    (machineThreads : Nat) : (Engine.start config machineThreads).Reached := by
  have hstart : ∀ base : Config, base.indexes.Fits → base.override env = .ok config →
      (Engine.start config machineThreads).Reached := fun base hbase hoverride =>
    .start config machineThreads (Config.override_indexes hoverride ▸ hbase)
  rw [readConfig.eq_def] at h
  dsimp only at h
  split at h
  · exact hstart _ Config.standard_fits h
  · split at h
    · exact hstart _ Config.standard_fits h
    · split at h
      · cases h
      · obtain ⟨base, hbase, hoverride⟩ := Except.bind_eq_ok_iff.1 h
        rw [Config.ofText] at hbase
        split at hbase
        · rename_i found hfound
          exact hstart base (Except.ok.inj hbase ▸ Config.ofText?_fits hfound) hoverride
        · cases hbase

/-- **What a run leaves at its output path.**  Under every configuration and
environment, a run that reports an index built a new one or filled a template
with a file whose rows have one width.  What it left is an index of that file, at
the dimension of its option, or else of the rows, or of the template.  So the
index holds the rows, each under its id and exactly as many as the file lists,
whenever that is the dimension of the rows. -/
theorem run_indexed (env : Config.Environment) (machineThreads : Nat) (files files' : FileTree)
    (i : Invocation) (summary : Summary)
    (h : i.run env machineThreads files = (files', .ok (.built summary))) :
    (∃ job file dimension, i.command = .build job ∧
      HostFile.at? files job.input job.spaceType.kind = some file ∧ file.Uniform ∧
      (job.dimension? <|> file.dimension?) = some dimension ∧
      (dimension < Count.bound → file.WrittenTo dimension files' job.output)) ∨
    ∃ job template held file, i.command = .fill job ∧
      files.bytes? job.template = some template ∧ Artifact.ofBytes template = .ok held ∧
      HostFile.at? files job.input held.kind = some file ∧ file.Uniform ∧
      file.WrittenTo held.dimension files' job.output := by
  rw [Invocation.run] at h
  cases hconfig : readConfig env files i.config? with
  | error cause =>
      rw [hconfig] at h
      cases (Prod.mk.inj h).2
  | ok config =>
      rw [hconfig] at h
      have he := reached_of_readConfig hconfig machineThreads
      obtain ⟨config?, verbose, command⟩ := i
      cases command with
      | build job =>
          obtain ⟨file, dimension, hindexed⟩ := build_indexed he h
          exact .inl ⟨job, file, dimension, rfl, hindexed⟩
      | fill job =>
          obtain ⟨template, held, file, hindexed⟩ := fill_indexed h
          exact .inr ⟨job, template, held, file, rfl, hindexed⟩
      | train job => exact absurd (congrArg Prod.snd h) (train_ne_built _ files job summary)
      | search job => exact absurd (congrArg Prod.snd h) (search_ne_built _ files job summary)
      | describe path => exact absurd (congrArg Prod.snd h) (describe_ne_built files path summary)

/-! ## Two rows of four bytes -/

def twoRows : VectorFile UInt8 := ⟨[10, 20], [#[1, 2, 3, 4], #[5, 6, 7, 8]]⟩

def twoRowsText : String := "[[10, 20], [[1, 2, 3, 4], [5, 6, 7, 8]]]"

/-- The rows at a path, and a template at another. -/
def twoRowsTree (template : List UInt8) : FileTree :=
  (FileTree.empty.set ["t"] (.file template)).set ["v"] (.file twoRowsText.toUTF8.data.toList)

/-- Plain storage of the rows, at the dimension of an option or at theirs. -/
def twoRowsJob (dimension? : Option Nat) : Job := ⟨"BFlat", dimension?, .hamming, "v", "o", none, 0⟩

/-- Plain storage of such rows, before it is filled. -/
def twoRowsBlank : Artifact := .binary (.bare (.flat ⟨⟨⟩, 32, 4, #[]⟩))

private theorem numeral?_ofList (cs : List Char) :
    (Json.number (String.ofList cs)).numeral? = (Spelling.ofChars cs).value? := by
  rw [Json.numeral?, Numeral.read?, String.toList_ofList]

private theorem read_twoRowsText :
    (VectorFile.read? twoRowsText : Option (VectorFile UInt8)) = some twoRows := by
  let number (cs : List Char) : Json := .number (String.ofList cs)
  have hjson : Json.read? twoRowsText = some (.array [.array [number ['1', '0'], number ['2', '0']],
      .array [.array [number ['1'], number ['2'], number ['3'], number ['4']],
        .array [number ['5'], number ['6'], number ['7'], number ['8']]]]) := by
    rw [Json.read?, show twoRowsText.toList = _ by rw [twoRowsText, String.toList_ofList]]
    rfl
  rw [VectorFile.read?, hjson]
  simp only [Option.bind_some, VectorFile.ofJson?, VectorFile.readIds?, readRow?, Json.arrayOf?,
    numeral?_ofList, number, List.mapM_cons, List.mapM_nil]
  rfl

private theorem twoRows_uniform : twoRows.Uniform := by
  intro row hrow
  obtain rfl | hrow := List.mem_cons.1 hrow
  · exact ⟨by decide, rfl⟩
  · obtain rfl := List.mem_singleton.1 hrow
    exact ⟨by decide, rfl⟩

private theorem bytes?_twoRowsTree (template : List UInt8) :
    (twoRowsTree template).bytes? "t" = some template ∧
      (twoRowsTree template).bytes? "v" = some twoRowsText.toUTF8.data.toList := by
  rw [twoRowsTree]
  generalize twoRowsText.toUTF8.data.toList = rows
  constructor
  all_goals simp +decide [FileTree.bytes?, FileTree.find?, FileTree.place?, FileTree.follow?,
    FileTree.entry?_set, FileTree.isDirectory, Route.ofPath, String.splitOn, String.splitOnAux]

private theorem failsAt?_twoRowsTree (template : List UInt8) :
    (twoRowsTree template).failsAt? "o" true none = none := by
  rw [twoRowsTree]
  generalize twoRowsText.toUTF8.data.toList = rows
  refine FileTree.failsAt?_eq_none (p := ["o.tmp"]) (q := ["o"]) ?_ ?_ ?_ true
  all_goals simp +decide [FileTree.makeDirectories, FileTree.makeAlong, FileTree.placeForFile?,
    FileTree.place?, FileTree.follow?, FileTree.temporaryPath, Route.ofPath, Route.parentPath,
    Route.trimEnd, String.splitOn, String.splitOnAux, FileTree.isDirectory, FileTree.entry?_set]

private theorem at?_twoRowsTree (template : List UInt8) :
    HostFile.at? (twoRowsTree template) "v" .binary = some (.binary twoRows) := by
  have htext : (twoRowsTree template).text? "v" = some twoRowsText := by
    rw [FileTree.text?, (bytes?_twoRowsTree template).2]
    simp only [String.fromUTF8?, Option.bind_some]
    exact dif_pos twoRowsText.isValidUTF8
  rw [HostFile.at?, htext, Option.bind_some, read_twoRowsText]
  rfl

/-- Plain storage of the rows. -/
def twoRowsFilled : Artifact :=
  .binary (.mapped ⟨.flat ⟨⟨⟩, 32, 4, #[1, 2, 3, 4, 5, 6, 7, 8]⟩, #[10, 20]⟩)

/-- Plain storage of two vectors of three bytes each, that the rows were cut to. -/
def twoRowsAcross : Artifact :=
  .binary (.mapped ⟨.flat ⟨⟨⟩, 24, 3, #[1, 2, 3, 4, 5, 6]⟩, #[10, 20]⟩)

private theorem readVectors_twoRows (template : List UInt8) (memoryLimit : Nat) :
    readVectors (twoRowsTree template) memoryLimit .binary "v" =
      .ok ⟨#[10, 20], (HostFile.binary twoRows).vectors, some 32⟩ := by
  have huniform : (HostFile.binary twoRows).Uniform := twoRows_uniform
  exact huniform.readVectors (at?_twoRowsTree template) memoryLimit

private theorem prepare_twoRowsJob (template : List UInt8) (dimension? : Option Nat)
    (memoryLimit : Nat) :
    (twoRowsJob dimension?).prepare (twoRowsTree template) memoryLimit =
      .ok (⟨"BFlat", dimension?.getD 32, .hamming, []⟩,
        ⟨#[10, 20], (HostFile.binary twoRows).vectors, some 32⟩) := by
  refine Except.bind_eq_ok_iff.2 ⟨[], rfl, Except.bind_eq_ok_iff.2
    ⟨_, readVectors_twoRows template memoryLimit, ?_⟩⟩
  cases dimension? <;> rfl

private theorem prepare_twoRowsFill {template : List UInt8}
    (hread : Artifact.ofBytes template = .ok twoRowsBlank) (memoryLimit : Nat) :
    FillJob.prepare ⟨"t", "v", "o", 0⟩ (twoRowsTree template) memoryLimit =
      .ok (template, ⟨#[10, 20], (HostFile.binary twoRows).vectors, some 32⟩) := by
  have hbytes := (bytes?_twoRowsTree template).1
  refine Except.bind_eq_ok_iff.2 ⟨template, by rw [readBytes, hbytes], ?_⟩
  refine Except.bind_eq_ok_iff.2 ⟨twoRowsBlank, by rw [hread]; rfl, ?_⟩
  exact Except.bind_eq_ok_iff.2 ⟨_, readVectors_twoRows template memoryLimit, rfl⟩

/-- A run with no configuration, on a machine with one thread, in an environment
that sets nothing. -/
def plainRun (files : FileTree) (command : Command) : FileTree × Except Failure Report :=
  Invocation.run (fun _ => none) 1 files ⟨none, false, command⟩

private theorem plainRun_eq (files : FileTree) (command : Command) :
    plainRun files command = command.run (.start .standard 1) files := rfl

/-- The rows are stored under their ids, in a new index or in a template. -/
theorem run_indexed_twoRows :
    ∃ template, Artifact.ofBytes template = .ok twoRowsBlank ∧ ∃ built filled,
      let done := Report.built ⟨"o", .binary, .flat, 32, 2, .transferred⟩
      plainRun (twoRowsTree template) (.build (twoRowsJob none)) = (built, .ok done) ∧
        plainRun (twoRowsTree template) (.fill ⟨"t", "v", "o", 0⟩) = (filled, .ok done) ∧
        (HostFile.binary twoRows).WrittenTo 32 built "o" ∧
        (HostFile.binary twoRows).WrittenTo 32 filled "o" := by
  have hblank : Artifact.ofBytes twoRowsBlank.toBytes = .ok twoRowsBlank := by
    have hdimension : 32 < Count.bound := by decide
    have hmemory : 0 < Count.signedBound := by decide
    exact Artifact.Kept.roundtrip ⟨Artifact.check_eq_ok_iff.1 rfl, hdimension, hmemory⟩ (by decide)
  obtain ⟨template, hread⟩ : ∃ template, Artifact.ofBytes template = .ok twoRowsBlank := ⟨_, hblank⟩
  have hfree := failsAt?_twoRowsTree template
  let summary : Summary := ⟨"o", .binary, .flat, 32, 2, .transferred⟩
  have hnew : (Request.makeNew Config.standard.indexes ⟨"BFlat", 32, .hamming, []⟩
      (HostFile.binary twoRows).vectors #[10, 20] "o").outcome = .ok (twoRowsFilled, summary) := rfl
  obtain ⟨built, hbuilt, -⟩ := build_done (e := Engine.start .standard 1)
    (prepare_twoRowsJob template none _) hnew hfree
  have hmade : (Request.fillTemplate template (HostFile.binary twoRows).vectors #[10, 20]
      "o").outcome = .ok (twoRowsFilled, summary) := by
    rw [HostFile.vectors, Request.fillTemplate_binary _ _ hread]
    rfl
  obtain ⟨filled, hfilled, -⟩ := fill_done (e := Engine.start .standard 1)
    (prepare_twoRowsFill hread _) hmade hfree
  rw [← plainRun_eq] at hbuilt hfilled
  refine ⟨template, hread, built, filled, hbuilt, hfilled, ?_, ?_⟩
  · rcases run_indexed _ _ _ _ _ _ hbuilt with
      ⟨job, file, dimension, hjob, hfile, -, hdimension, hwritten⟩ | ⟨job, -, -, -, hjob, -⟩
    · obtain rfl := Command.build.inj hjob
      obtain rfl := Option.some.inj ((at?_twoRowsTree template).symm.trans hfile)
      obtain rfl : 32 = dimension := Option.some.inj hdimension
      exact hwritten (by decide)
    · cases hjob
  · rcases run_indexed _ _ _ _ _ _ hfilled with
      ⟨job, -, -, hjob, -⟩ | ⟨job, bytes, held, file, hjob, hfound, hheld, hfile, -, hwritten⟩
    · cases hjob
    · obtain rfl := Command.fill.inj hjob
      obtain rfl := Option.some.inj ((bytes?_twoRowsTree template).1.symm.trans hfound)
      obtain rfl := Except.ok.inj (hread.symm.trans hheld)
      obtain rfl := Option.some.inj ((at?_twoRowsTree template).symm.trans hfile)
      exact hwritten

/-- With an option of a smaller dimension the rows are cut across, and as many
vectors as there are ids come out: nothing is refused, and other vectors than the
rows are stored. -/
theorem run_acrossRows :
    ∃ files, HostFile.at? (twoRowsTree []) "v" .binary = some (.binary twoRows) ∧
      plainRun (twoRowsTree []) (.build (twoRowsJob (some 24))) =
        (files, .ok (.built ⟨"o", .binary, .flat, 24, 2, .transferred⟩)) ∧
      files.load "o" = .ok twoRowsAcross ∧ ¬ (HostFile.binary twoRows).RowsIn twoRowsAcross := by
  have hmade : (Request.makeNew Config.standard.indexes ⟨"BFlat", 24, .hamming, []⟩
      (HostFile.binary twoRows).vectors #[10, 20] "o").outcome =
        .ok (twoRowsAcross, ⟨"o", .binary, .flat, 24, 2, .transferred⟩) := rfl
  obtain ⟨files, hrun, hstored⟩ := build_done (e := Engine.start .standard 1)
    (prepare_twoRowsJob [] (some 24) _) hmade (failsAt?_twoRowsTree [])
  obtain ⟨_, _, _, -, -, -, -, -, hfilled⟩ :=
    Request.of_makeNew Config.standard_fits (by decide) hmade
  have hstorable : twoRowsAcross.Storable := by
    have hdata : 6 < Count.signedBound := by decide
    have hids : 2 < Count.signedBound := by decide
    exact ⟨⟨hdata, hids⟩, by decide⟩
  refine ⟨files, at?_twoRowsTree [], hrun, FileTree.load_of_bytes? hstored
    (hfilled.reload hstorable), fun hrows => ?_⟩
  have hcut : vectorsOf 3 #[1, 2, 3, 4, 5, 6] = twoRows.rows := hrows.2.vectors
  have hfirst := congrArg (fun rows => rows.head?.map Array.size) hcut
  revert hfirst
  decide

end Proximity.CommandLine
