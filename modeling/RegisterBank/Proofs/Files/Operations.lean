import RegisterBank.Document.Standard
import RegisterBank.Proofs.Bank.Names
import RegisterBank.Proofs.Files.Actions
import RegisterBank.Proofs.Files.Memory
import RegisterBank.Proofs.Files.Paths

/-!
# Operations on files

An operation on files has several stages that may fail, and a single write
behind all of them.  `Operation.Writes` says which file the operation is for,
with the whole of its text; `Operation.Outcome` that it is written, or that
nothing is.  What is generated lies one step below the directory that it is
written into: neither an identifier nor the stem of a path has a slash
(`slash_notMem_outputName`).
-/

namespace RegisterBank.Files

/-! ## Operations -/

/-- An operation on register maps, configurations and what is generated from
them. -/
inductive Operation where
  | readMap (path : Path) (config : Configuration)
  | readConfig (path : Path)
  | writeMap (path : Path) (map : RegisterMap)
  | writeConfig (path : Path) (config : Configuration)
  | writeMapTemplate (path : Path) (config : Configuration)
  | writeConfigTemplate (path : Path)
  | generateBridge (map : RegisterMap) (directory : Path) (input : Option Path)
  | generateReference (map : RegisterMap) (directory : Path) (input : Option Path)

namespace Operation

/-- The operation, with the path that it writes as its result. -/
def perform (codec : Document.Codec) : Operation → Action (Option Path)
  | .readMap path config => do
    let _ ← Files.readMap codec path config
    return none
  | .readConfig path => do
    let _ ← Files.readConfig codec path
    return none
  | .writeMap path map => do
    Files.writeMap codec path map
    return some path
  | .writeConfig path config => do
    Files.writeConfig codec path config
    return some path
  | .writeMapTemplate path config => do
    Files.writeMapTemplate codec path config
    return some path
  | .writeConfigTemplate path => do
    Files.writeConfigTemplate codec path
    return some path
  | .generateBridge map directory input => Files.generateBridge map directory input
  | .generateReference map directory input => do
    let path ← Files.generateReference map directory input
    return some path

/-- The one file that an operation is for: its path and the whole of its text,
where every stage before the write succeeds. -/
inductive Writes (codec : Document.Codec) : Operation → Path → String → Prop
  | map {path : Path} {map : RegisterMap} {format : Document.Format} {text : String} :
    path.format = .ok format → Schema.writeMap codec format map = .ok text →
    Writes codec (.writeMap path map) path text
  | config {path : Path} {config : Configuration} {format : Document.Format} {text : String} :
    path.format = .ok format → Schema.writeConfig codec format config = .ok text →
    Writes codec (.writeConfig path config) path text
  | mapTemplate {path : Path} {config : Configuration} {map : RegisterMap}
      {format : Document.Format} {text : String} :
    RegisterMap.template config = .ok map → path.format = .ok format →
    Schema.writeMap codec format map = .ok text →
    Writes codec (.writeMapTemplate path config) path text
  | configTemplate {path : Path} {format : Document.Format} {text : String} :
    path.format = .ok format → Schema.writeConfig codec format .default = .ok text →
    Writes codec (.writeConfigTemplate path) path text
  | bridge {map : RegisterMap} {directory : Path} {input : Option Path} {layout : Layout}
      {name : String} {source : BridgeSource} :
    Layout.resolve map = .ok layout → outputName map.config input = .ok name →
    layout.renderBridge name = .ok (some source) →
    Writes codec (.generateBridge map directory input) (directory.join source.fileName) source.text
  | reference {map : RegisterMap} {directory : Path} {input : Option Path} {layout : Layout}
      {name : String} :
    Layout.resolve map = .ok layout → outputName map.config input = .ok name →
    Writes codec (.generateReference map directory input) (directory.join (name ++ ".md"))
      (Reference.page layout name)

/-- Whether an operation succeeds without a file to write: it reads, or no
bridge is asked for. -/
def isIdle : Operation → Bool
  | .readMap _ _ | .readConfig _ => true
  | .generateBridge map _ _ => map.config.protocol.isNone
  | _ => false

/-- What comes of an operation on files in memory. -/
inductive Outcome (codec : Document.Codec) (operation : Operation) (files : Memory) :
    Result (Option Path) → Memory → Prop
  /-- The operation succeeds and its one file is written. -/
  | written {path : Path} {text : String} {after : Memory} :
    operation.Writes codec path text → files.Gains after path text →
    Outcome codec operation files (.ok (some path)) after
  /-- The operation succeeds, and there was nothing to write. -/
  | idle : operation.isIdle = true → Outcome codec operation files (.ok none) files
  /-- The operation fails before anything is written. -/
  | failed (error : Error) : (∀ path text, ¬ operation.Writes codec path text) →
    Outcome codec operation files (.error error) files

end Operation

/-! ## Every operation has one of its outcomes -/

variable {codec : Document.Codec}

/-- Where an operation has a file to write, it writes it. -/
theorem Operation.Writes.performed {operation : Operation} {path : Path} {text : String}
    (writes : operation.Writes codec path text) (files : Memory) :
    (operation.perform codec).Does files (.ok (some path)) (files.write path text) := by
  cases writes with
  | map known rendered => exact (does_save known rendered).bind rfl (Action.does_pure _)
  | config known rendered => exact (does_save known rendered).bind rfl (Action.does_pure _)
  | configTemplate known rendered => exact (does_save known rendered).bind rfl (Action.does_pure _)
  | @mapTemplate path config map format text made known rendered =>
    have done : (Files.writeMapTemplate codec path config).Does files (.ok ())
        (files.write path text) :=
      (Action.does_ofResult _).bind made (does_save known rendered)
    exact done.bind rfl (Action.does_pure _)
  | bridge resolved named rendered => exact does_generateBridge resolved named rendered
  | reference resolved named =>
    exact (does_generateReference resolved named).bind rfl (Action.does_pure _)

namespace Operation

variable {operation : Operation} {files : Memory}

/-- An operation on files in memory has one of its outcomes. -/
def Settles (codec : Document.Codec) (operation : Operation) (files : Memory) : Prop :=
  ∃ result after, (operation.perform codec).Does files result after ∧
    operation.Outcome codec files result after

/-- An operation that writes settles to just that write. -/
theorem settles_of_writes {path : Path} {text : String} (writes : operation.Writes codec path text) :
    operation.Settles codec files :=
  ⟨_, _, writes.performed files, .written writes (files.gains_write path text)⟩

/-- What fails has no file to write, or else it would write it. -/
theorem settles_of_error {error : Error}
    (failed : (operation.perform codec).Does files (.error error) files) :
    operation.Settles codec files := by
  refine ⟨_, _, failed, .failed error ?_⟩
  intro path text writes
  cases ((writes.performed files).unique failed).1

/-- What only keeps files has nothing to write. -/
theorem settles_of_keeps {α : Type} {action : Action α} (keeps : action.Keeps)
    (own : operation.perform codec = do
      let _ ← action
      return none)
    (idle : operation.isIdle = true) : operation.Settles codec files := by
  obtain ⟨result, done⟩ := keeps files
  cases result with
  | error error =>
    apply settles_of_error
    rw [own]
    exact done.fail rfl
  | ok value =>
    refine ⟨.ok none, files, ?_, .idle idle⟩
    rw [own]
    exact done.bind rfl (Action.does_pure _)

theorem settles_writeMap (path : Path) (map : RegisterMap) :
    (writeMap path map).Settles codec files := by
  rcases save_cases path (fun format => Schema.writeMap codec format map) (.mapWritten path) files
    with ⟨format, text, known, rendered⟩ | ⟨error, failed⟩
  · exact settles_of_writes (.map known rendered)
  · exact settles_of_error (failed.fail rfl)

theorem settles_writeConfig (path : Path) (config : Configuration) :
    (writeConfig path config).Settles codec files := by
  rcases save_cases path (fun format => Schema.writeConfig codec format config)
    (.configurationWritten path) files with ⟨format, text, known, rendered⟩ | ⟨error, failed⟩
  · exact settles_of_writes (.config known rendered)
  · exact settles_of_error (failed.fail rfl)

theorem settles_writeConfigTemplate (path : Path) :
    (writeConfigTemplate path).Settles codec files := by
  rcases save_cases path (fun format => Schema.writeConfig codec format .default)
    (.configurationWritten path) files with ⟨format, text, known, rendered⟩ | ⟨error, failed⟩
  · exact settles_of_writes (.configTemplate known rendered)
  · exact settles_of_error (failed.fail rfl)

theorem settles_writeMapTemplate (path : Path) (config : Configuration) :
    (writeMapTemplate path config).Settles codec files := by
  cases made : RegisterMap.template config with
  | error error =>
    have failed : (Files.writeMapTemplate codec path config).Does files (.error error) files :=
      (Action.does_ofResult _).fail made
    exact settles_of_error (failed.fail rfl)
  | ok map =>
    rcases save_cases path (fun format => Schema.writeMap codec format map) (.mapWritten path) files
      with ⟨format, text, known, rendered⟩ | ⟨error, failed⟩
    · exact settles_of_writes (.mapTemplate made known rendered)
    · have failed : (Files.writeMapTemplate codec path config).Does files (.error error) files :=
        (Action.does_ofResult _).bind made failed
      exact settles_of_error (failed.fail rfl)

theorem settles_generateReference (map : RegisterMap) (directory : Path) (input : Option Path) :
    (generateReference map directory input).Settles codec files := by
  have placed := does_resolve map files
  cases resolved : Layout.resolve map with
  | error error =>
    have failed : (Files.generateReference map directory input).Does files (.error error) files :=
      placed.fail resolved
    exact settles_of_error (failed.fail rfl)
  | ok layout =>
    cases named : outputName map.config input with
    | error error =>
      have failed : (Files.generateReference map directory input).Does files (.error error)
          files := placed.bind resolved ((Action.does_ofResult _).fail named)
      exact settles_of_error (failed.fail rfl)
    | ok name => exact settles_of_writes (.reference resolved named)

/-- A bridge is skipped, refused or written, and nothing else happens. -/
theorem settles_generateBridge (map : RegisterMap) (directory : Path) (input : Option Path) :
    (generateBridge map directory input).Settles codec files := by
  have placed := does_resolve map files
  cases resolved : Layout.resolve map with
  | error error => exact settles_of_error (placed.fail resolved)
  | ok layout =>
    cases asked : map.config.protocol.isNone with
    | true =>
      refine ⟨.ok none, files, placed.bind resolved ?_, .idle asked⟩
      rw [asked, if_pos rfl]
      exact (Action.does_tell _).bind rfl (Action.does_pure _)
    | false =>
      cases named : outputName map.config input with
      | error error =>
        have failed : (Files.generateBridge map directory input).Does files (.error error)
            files := by
          refine placed.bind resolved ?_
          rw [asked, if_neg Bool.false_ne_true]
          exact (Action.does_ofResult _).fail named
        exact settles_of_error failed
      | ok name =>
        cases rendered : layout.renderBridge name with
        | error error =>
          have failed : (Files.generateBridge map directory input).Does files (.error error)
              files := by
            refine placed.bind resolved ?_
            rw [asked, if_neg Bool.false_ne_true]
            exact (Action.does_ofResult _).bind named ((Action.does_ofResult _).fail rendered)
          exact settles_of_error failed
        | ok source? =>
          obtain ⟨unasked, -⟩ | ⟨source, -, rfl, -⟩ := renderBridge_cases rendered
          · rw [← config_of_resolve resolved, unasked] at asked
            cases asked
          · exact settles_of_writes (.bridge resolved named rendered)

/-- Each operation, on any files, settles. -/
theorem settles (codec : Document.Codec) (operation : Operation) (files : Memory) :
    operation.Settles codec files := by
  cases operation with
  | readMap path config => exact settles_of_keeps (keeps_readMap codec path config) rfl rfl
  | readConfig path => exact settles_of_keeps (keeps_readConfig codec path) rfl rfl
  | writeMap path map => exact settles_writeMap path map
  | writeConfig path config => exact settles_writeConfig path config
  | writeMapTemplate path config => exact settles_writeMapTemplate path config
  | writeConfigTemplate path => exact settles_writeConfigTemplate path
  | generateBridge map directory input => exact settles_generateBridge map directory input
  | generateReference map directory input => exact settles_generateReference map directory input

end Operation

/-! ## Where generated files lie -/

/-- A path of a file with a name, one step from a directory. -/
def Path.IsIn (path directory : Path) (name : String) : Prop :=
  path = directory.join name ∧ path.components = directory.components ++ [.name name]

/-- A file name of one component stays in its directory. -/
theorem isIn_join {name : String} (step : IsStep name) (directory : Path) :
    (directory.join name).IsIn directory name :=
  ⟨rfl, Path.components_join step directory⟩

/-- Neither a configured name nor the stem of a path has a slash. -/
theorem slash_notMem_outputName {config : Configuration} (valid : config.Valid)
    {input : Option Path} {name : String} (named : outputName config input = .ok name) :
    '/' ∉ name.toList := by
  unfold outputName at named
  cases own : config.name with
  | some configured =>
    rw [own] at named
    cases named
    exact Text.notMem_of_isIdentifier (valid.name name own) rfl
  | none =>
    rw [own] at named
    cases stem : input.bind Path.stem? with
    | none =>
      rw [stem] at named
      cases named
    | some stem' =>
      rw [stem] at named
      cases named
      obtain ⟨path, -, has⟩ := Option.bind_eq_some_iff.mp stem
      exact Path.slash_notMem_stem has

/-- A name with a proper ending is no dot and no pair of dots. -/
theorem isStep_append {name ending : String} (free : '/' ∉ name.toList)
    (free' : '/' ∉ ending.toList) {last : Char} (ends : ending.toList.getLast? = some last)
    (solid : last ≠ '.') : IsStep (name ++ ending) := by
  refine isStep_of_last ?_ ?_ solid
  · rw [String.toList_append, List.mem_append, not_or]
    exact ⟨free, free'⟩
  · rw [String.toList_append, List.getLast?_append, ends]
    rfl

/-- A bridge is written under the name of its bus family and its map. -/
theorem isIn_of_writes_bridge {map : RegisterMap} {directory path : Path} {input : Option Path}
    {text : String} (writes : (Operation.generateBridge map directory input).Writes codec path text) :
    ∃ protocol name, map.config.protocol = some protocol ∧
      outputName map.config input = .ok name ∧
      path.IsIn directory (protocol.word ++ "2lb_" ++ name ++ ".v") := by
  cases writes with
  | @bridge _ _ _ layout name source resolved named rendered =>
    obtain ⟨-, nothing⟩ | ⟨source, protocol, same, asked, fileName, identifier⟩ :=
      renderBridge_cases rendered
    · cases nothing
    · cases same
      rw [config_of_resolve resolved] at asked
      have free := Text.notMem_of_isIdentifier (Bank.isIdentifier_moduleName protocol identifier)
        (c := '/') rfl
      have ends : ".v".toList.getLast? = some 'v' := rfl
      have step : IsStep (protocol.moduleName name ++ ".v") :=
        isStep_append free (by decide) ends (by decide)
      refine ⟨protocol, name, asked, named, ?_⟩
      rw [fileName]
      exact isIn_join step directory

/-- A page is written into its directory, under the map's name. -/
theorem isIn_of_writes_reference {map : RegisterMap} (valid : map.config.Valid)
    {directory path : Path} {input : Option Path} {text : String}
    (writes : (Operation.generateReference map directory input).Writes codec path text) :
    ∃ name, outputName map.config input = .ok name ∧ path.IsIn directory (name ++ ".md") := by
  cases writes with
  | @reference _ _ _ layout name resolved named =>
    have free := slash_notMem_outputName valid named
    have ends : ".md".toList.getLast? = some 'd' := rfl
    have step : IsStep (name ++ ".md") := isStep_append free (by decide) ends (by decide)
    exact ⟨name, named, isIn_join step directory⟩

/-- **Operations on files are all or nothing.**  An operation either succeeds and
writes the one file that it is for, with the whole of its text, or leaves all
files as they are: if it fails, if it only reads, or if no bridge is asked for.
Bridges and reference pages are written one step below the directory. -/
theorem operations_all_or_nothing (codec : Document.Codec) :
    (∀ (operation : Operation) (files : Memory), operation.Settles codec files) ∧
    (∀ map directory input path text,
      (Operation.generateBridge map directory input).Writes codec path text →
      ∃ protocol name, map.config.protocol = some protocol ∧
        outputName map.config input = .ok name ∧
        path.IsIn directory (protocol.word ++ "2lb_" ++ name ++ ".v")) ∧
    ∀ map directory input path text, map.config.Valid →
      (Operation.generateReference map directory input).Writes codec path text →
      ∃ name, outputName map.config input = .ok name ∧ path.IsIn directory (name ++ ".md") := by
  refine ⟨Operation.settles codec, ?_, ?_⟩
  · intro map directory input path text writes
    exact isIn_of_writes_bridge writes
  · intro map directory input path text valid writes
    exact isIn_of_writes_reference valid writes

/-- The map comes from a file whose stem is no identifier, so there is a page
but no bridge. -/
theorem operations_all_or_nothing_starter :
    (Operation.generateBridge Bank.starterMap ⟨"out/"⟩ (some ⟨"maps/my-regs.json"⟩)).Settles
        .standard ⟨[(⟨"out//my-regs.md"⟩, "outdated")]⟩ ∧
      (∀ path text, ¬ (Operation.generateBridge Bank.starterMap ⟨"out/"⟩
        (some ⟨"maps/my-regs.json"⟩)).Writes .standard path text) ∧
      ∃ path, path.IsIn ⟨"out/"⟩ "my-regs.md" ∧
        (Operation.generateReference Bank.starterMap ⟨"out/"⟩ (some ⟨"maps/my-regs.json"⟩)).Writes
          .standard path (Reference.page Bank.starterLayout "my-regs") ∧
        Memory.samePath path ⟨"out//my-regs.md"⟩ = true := by
  have named : outputName Bank.starterMap.config (some ⟨"maps/my-regs.json"⟩) = .ok "my-regs" := rfl
  have writes : (Operation.generateReference Bank.starterMap ⟨"out/"⟩
      (some ⟨"maps/my-regs.json"⟩)).Writes .standard _ _ :=
    .reference Bank.accepted_starter.resolved named
  obtain ⟨settles, bridge, reference⟩ := operations_all_or_nothing .standard
  refine ⟨settles _ _, ?_, _, ?_, writes, rfl⟩
  · intro path text writes
    cases writes with
    | bridge _ other rendered =>
      rw [named] at other
      cases other
      obtain ⟨-, nothing⟩ | ⟨_, _, -, -, -, identifier⟩ := renderBridge_cases rendered
      · cases nothing
      · cases identifier
  · obtain ⟨name, own, inside⟩ :=
      reference _ _ _ _ _ Bank.accepted_starter.built.valid.config writes
    rw [named] at own
    cases own
    exact inside

end RegisterBank.Files
