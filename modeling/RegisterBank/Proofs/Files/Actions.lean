import RegisterBank.Files.Documents
import RegisterBank.Files.Outputs

/-!
# What actions do to files in memory

An action on a session tells about its work and may fail.  `Action.Does` leaves
out what is told: the result and the files that are left.  An action that
`Keeps` all files may be chained with others of that kind in any way; the stages
of an operation that writes are chained one by one, up to the first that fails.
-/

namespace RegisterBank.Files

/-! ## Actions on files in memory -/

namespace Action

variable {α β : Type}

/-- Whatever was told before, an action on files in memory has a result and
leaves certain files. -/
def Does (action : Action α) (before : Memory) (result : Result α) (after : Memory) : Prop :=
  ∀ events, ∃ told, action.run.run ⟨.memory before, events⟩ = (result, ⟨.memory after, told⟩)

/-- An action leaves all files as they are, whether it fails or not. -/
def Keeps (action : Action α) : Prop := ∀ files, ∃ result, action.Does files result files

variable {action : Action α} {next : α → Action β} {before between after files : Memory}

/-- What comes after a success. -/
theorem Does.bind {first : Result α} {value : α} {result : Result β}
    (done : action.Does before first between) (ok : first = .ok value)
    (later : (next value).Does between result after) :
    (action >>= next).Does before result after := by
  subst ok
  intro events
  obtain ⟨told, ran⟩ := done events
  obtain ⟨told', ran'⟩ := later told
  refine ⟨told', ?_⟩
  rw [ExceptT.run_bind, StateT.run_bind, ran]
  exact ran'

/-- Nothing comes after a failure. -/
theorem Does.fail {first : Result α} {error : Error} (done : action.Does before first after)
    (failed : first = .error error) : (action >>= next).Does before (.error error) after := by
  subst failed
  intro events
  obtain ⟨told, ran⟩ := done events
  refine ⟨told, ?_⟩
  rw [ExceptT.run_bind, StateT.run_bind, ran]
  rfl

/-- An action does one thing only. -/
theorem Does.unique {result result' : Result α} {after' : Memory}
    (first : action.Does before result after) (second : action.Does before result' after') :
    result = result' ∧ after = after' := by
  obtain ⟨told, ran⟩ := first []
  obtain ⟨told', ran'⟩ := second []
  rw [ran] at ran'
  cases ran'
  exact ⟨rfl, rfl⟩

theorem does_pure (value : α) : (pure value : Action α).Does files (.ok value) files :=
  fun events => ⟨events, rfl⟩

theorem does_ofResult (result : Result α) : (ofResult result).Does files result files :=
  fun events => ⟨events, rfl⟩

/-- Telling an event touches no file. -/
theorem does_tell (events : List Event) : (tell events).Does files (.ok ()) files :=
  fun earlier => ⟨earlier ++ events, rfl⟩

/-- Reading changes no file. -/
theorem does_read (path : Path) :
    (read path).Does files ((Store.memory files).read path) files :=
  fun events => ⟨events, rfl⟩

/-- Memory takes every write. -/
theorem does_write (path : Path) (contents : String) :
    (write path contents).Does files (.ok ()) (files.write path contents) :=
  fun events => ⟨events ++ [], rfl⟩

/-- Two actions that keep the files keep them together. -/
theorem Keeps.bind (first : action.Keeps) (later : ∀ value, (next value).Keeps) :
    (action >>= next).Keeps := by
  intro files
  obtain ⟨result, done⟩ := first files
  cases result with
  | error error => exact ⟨.error error, done.fail rfl⟩
  | ok value =>
    obtain ⟨result, rest⟩ := later value files
    exact ⟨result, done.bind rfl rest⟩

theorem keeps_pure (value : α) : (pure value : Action α).Keeps :=
  fun _ => ⟨.ok value, does_pure value⟩

theorem keeps_ofResult (result : Result α) : (ofResult result).Keeps :=
  fun _ => ⟨result, does_ofResult result⟩

theorem keeps_tell (events : List Event) : (tell events).Keeps :=
  fun _ => ⟨.ok (), does_tell events⟩

theorem keeps_read (path : Path) : (read path).Keeps := fun _ => ⟨_, does_read path⟩

end Action

/-! ## Stages -/

/-- Reading a map keeps the files, whether it succeeds or not. -/
theorem keeps_readMap (codec : Document.Codec) (path : Path) (config : Configuration) :
    (readMap codec path config).Keeps := by
  unfold readMap
  refine (Action.keeps_ofResult _).bind fun format => ?_
  refine (Action.keeps_read path).bind fun text => ?_
  refine (Action.keeps_ofResult _).bind fun tree => ?_
  refine (Action.keeps_tell _).bind fun _ => ?_
  refine (Action.keeps_ofResult _).bind fun _ => ?_
  exact (Action.keeps_tell _).bind fun _ => Action.keeps_pure _

theorem keeps_readConfig (codec : Document.Codec) (path : Path) :
    (readConfig codec path).Keeps := by
  unfold readConfig
  refine (Action.keeps_ofResult _).bind fun format => ?_
  exact (Action.keeps_read path).bind fun text => Action.keeps_ofResult _

/-- Resolving touches no file. -/
theorem does_resolve (map : RegisterMap) (files : Memory) :
    (resolve map).Does files (Layout.resolve map) files :=
  (Action.does_tell _).bind rfl (Action.does_ofResult _)

section Save

variable {path : Path} {render : Document.Format → Result String} {event : Event} {files : Memory}

/-- A document that renders in the format of its path is written. -/
theorem does_save {format : Document.Format} {text : String} (known : path.format = .ok format)
    (rendered : render format = .ok text) :
    (save path render event).Does files (.ok ()) (files.write path text) := by
  refine (Action.does_ofResult _).bind known ?_
  refine (Action.does_ofResult _).bind rendered ?_
  exact (Action.does_write path text).bind rfl (Action.does_tell [event])

/-- Where a path has no format, or the document does not render, nothing is written. -/
theorem save_cases (path : Path) (render : Document.Format → Result String) (event : Event)
    (files : Memory) :
    (∃ format text, path.format = .ok format ∧ render format = .ok text) ∨
    ∃ error, (save path render event).Does files (.error error) files := by
  cases known : path.format with
  | error error => exact .inr ⟨error, (Action.does_ofResult _).fail known⟩
  | ok format =>
    cases rendered : render format with
    | error error =>
      refine .inr ⟨error, (Action.does_ofResult _).bind known ?_⟩
      exact (Action.does_ofResult _).fail rendered
    | ok text => exact .inl ⟨format, text, rfl, rendered⟩

end Save

theorem config_of_resolve {map : RegisterMap} {layout : Layout}
    (resolved : Layout.resolve map = .ok layout) : layout.config = map.config := by
  unfold Layout.resolve at resolved
  split at resolved
  · cases resolved
  · cases resolved
    rfl

/-- A bank is prepared for the bus family that is asked for. -/
theorem protocol_of_prepare {layout : Layout} {prepared : Option (Bus.Protocol × Bank.Plan)}
    (done : layout.prepare = .ok prepared) : layout.config.protocol = prepared.map Prod.fst := by
  unfold Layout.prepare at done
  cases asked : layout.config.protocol with
  | none =>
    rw [asked] at done
    cases done
    rfl
  | some protocol =>
    rw [asked] at done
    dsimp only at done
    split at done
    · cases done
    · cases made : Bank.Plan.make layout protocol with
      | error error =>
        rw [made] at done
        cases done
      | ok plan =>
        rw [made] at done
        cases done
        rfl

/-- What rendering gives: nothing if no bridge is asked for, and else a bridge
whose file has the name of its module. -/
theorem renderBridge_cases {layout : Layout} {name : String} {source? : Option BridgeSource}
    (rendered : layout.renderBridge name = .ok source?) :
    (layout.config.protocol = none ∧ source? = none) ∨
    ∃ source protocol, source? = some source ∧ layout.config.protocol = some protocol ∧
      source.fileName = protocol.moduleName name ++ ".v" ∧ Text.isIdentifier name = true := by
  unfold Layout.renderBridge at rendered
  split at rendered
  · cases rendered
  · rename_i prepared
    cases rendered
    exact .inl ⟨protocol_of_prepare prepared, rfl⟩
  · rename_i protocol plan prepared
    cases named : Text.isIdentifier name with
    | false =>
      rw [named] at rendered
      cases rendered
    | true =>
      rw [named] at rendered
      cases rendered
      exact .inr ⟨_, protocol, rfl, protocol_of_prepare prepared, rfl, rfl⟩

section Generate

variable {map : RegisterMap} {directory : Path} {input : Option Path} {layout : Layout}
  {name : String} {files : Memory}

/-- A bridge that is rendered is written under its name in the directory. -/
theorem does_generateBridge {source : BridgeSource} (resolved : Layout.resolve map = .ok layout)
    (named : outputName map.config input = .ok name)
    (rendered : layout.renderBridge name = .ok (some source)) :
    (generateBridge map directory input).Does files (.ok (some (directory.join source.fileName)))
      (files.write (directory.join source.fileName) source.text) := by
  have asked : map.config.protocol.isNone = false := by
    rw [← config_of_resolve resolved]
    obtain ⟨-, nothing⟩ | ⟨_, protocol, -, asked, -⟩ := renderBridge_cases rendered
    · cases nothing
    · rw [asked]
      rfl
  refine (does_resolve map files).bind resolved ?_
  rw [asked, if_neg Bool.false_ne_true]
  refine (Action.does_ofResult _).bind named ?_
  refine (Action.does_ofResult _).bind rendered ?_
  refine (Action.does_tell _).bind rfl ?_
  refine (Action.does_write _ _).bind rfl ?_
  exact (Action.does_tell _).bind rfl (Action.does_pure _)

/-- The page of a map that resolves is written under the map's name. -/
theorem does_generateReference (resolved : Layout.resolve map = .ok layout)
    (named : outputName map.config input = .ok name) :
    (generateReference map directory input).Does files (.ok (directory.join (name ++ ".md")))
      (files.write (directory.join (name ++ ".md")) (Reference.page layout name)) := by
  refine (does_resolve map files).bind resolved ?_
  refine (Action.does_ofResult _).bind named ?_
  refine (Action.does_write _ _).bind rfl ?_
  exact (Action.does_tell _).bind rfl (Action.does_pure _)

end Generate

end RegisterBank.Files
