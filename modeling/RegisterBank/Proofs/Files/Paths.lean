import RegisterBank.Files.Path
import Mathlib.Data.List.Basic

/-!
# Names in directories

A name without slashes that is not a dot or two is one step of a path, so a
file that is joined to a directory lies in it and nowhere else
(`components_join`).  The stem of a path keeps some of the characters of one of
its pieces, so it has no slash either.
-/

namespace RegisterBank.Files

/-! ## Pieces between slashes -/

theorem splitSlashes_slash (rest : List Char) :
    splitSlashes ('/' :: rest) = [] :: splitSlashes rest :=
  if_pos rfl

/-- A character that is no slash belongs to the first piece. -/
theorem exists_splitSlashes_cons (text : List Char) :
    ∃ piece pieces, splitSlashes text = piece :: pieces ∧
      ∀ c, c ≠ '/' → splitSlashes (c :: text) = (c :: piece) :: pieces := by
  have own : ∃ piece pieces, splitSlashes text = piece :: pieces := by
    cases text with
    | nil => exact ⟨[], [], rfl⟩
    | cons first rest =>
      unfold splitSlashes
      split
      · exact ⟨_, _, rfl⟩
      · split
        · exact ⟨_, _, rfl⟩
        · exact ⟨_, _, rfl⟩
  obtain ⟨piece, pieces, split⟩ := own
  refine ⟨piece, pieces, split, ?_⟩
  intro c other
  rw [splitSlashes, if_neg other, split]

theorem splitSlashes_append_slash (first second : List Char) :
    splitSlashes (first ++ '/' :: second) = splitSlashes first ++ splitSlashes second := by
  induction first with
  | nil => exact splitSlashes_slash second
  | cons c rest ih =>
    by_cases slash : c = '/'
    · subst slash
      rw [List.cons_append, splitSlashes_slash, splitSlashes_slash, ih, List.cons_append]
    · obtain ⟨piece, pieces, split, longer⟩ := exists_splitSlashes_cons rest
      obtain ⟨piece', pieces', split', longer'⟩ :=
        exists_splitSlashes_cons (rest ++ '/' :: second)
      rw [ih, split, List.cons_append, List.cons.injEq] at split'
      rw [List.cons_append, longer' c slash, longer c slash, List.cons_append, split'.1, split'.2]

theorem splitSlashes_of_notMem {text : List Char} (free : '/' ∉ text) :
    splitSlashes text = [text] := by
  induction text with
  | nil => rfl
  | cons c rest ih =>
    rw [List.mem_cons, not_or] at free
    rw [splitSlashes, if_neg fun slash => free.1 slash.symm, ih free.2]

theorem slash_notMem_of_mem_splitSlashes {text piece : List Char}
    (listed : piece ∈ splitSlashes text) : '/' ∉ piece := by
  induction text generalizing piece with
  | nil =>
    rw [List.mem_singleton.mp listed]
    exact List.not_mem_nil
  | cons c rest ih =>
    by_cases slash : c = '/'
    · rw [slash, splitSlashes_slash, List.mem_cons] at listed
      rcases listed with rfl | behind
      · exact List.not_mem_nil
      · exact ih behind
    · obtain ⟨first, pieces, split, longer⟩ := exists_splitSlashes_cons rest
      rw [longer c slash, List.mem_cons] at listed
      rcases listed with rfl | behind
      · rw [List.mem_cons, not_or]
        refine ⟨fun same => slash same.symm, ih ?_⟩
        rw [split]
        exact List.mem_cons_self
      · apply ih
        rw [split]
        exact List.mem_cons_of_mem _ behind

/-! ## Single names -/

/-- A text that is one step of a path: a name without a slash. -/
structure IsStep (name : String) : Prop where
  free : '/' ∉ name.toList
  component : pieceComponent? name.toList = some (.name name)

/-- A text without slashes that does not end with a dot is a single name. -/
theorem isStep_of_last {name : String} (free : '/' ∉ name.toList) {last : Char}
    (ends : name.toList.getLast? = some last) (solid : last ≠ '.') : IsStep name := by
  refine ⟨free, ?_⟩
  have notDots : ¬ name.toList = ['.', '.'] := by
    intro dots
    rw [dots] at ends
    exact solid (Option.some.inj ends).symm
  have counts : ¬ (name.toList = [] ∨ name.toList = ['.']) := by
    intro nothing
    rcases nothing with empty | dot
    · rw [empty] at ends
      cases ends
    · rw [dot] at ends
      exact solid (Option.some.inj ends).symm
  unfold pieceComponent?
  rw [if_neg counts, if_neg notDots, String.ofList_toList]

theorem IsStep.ne_dot {name : String} (step : IsStep name) : name.toList ≠ ['.'] := by
  intro dot
  have component := step.component
  rw [dot] at component
  cases component

namespace Path

/-- What a path starts with is seen from its first character and its first
piece. -/
theorem start_congr {path other : Path}
    (head : other.text.toList.head? = path.text.toList.head?)
    (first : other.pieces.head? = path.pieces.head?) : other.start = path.start := by
  unfold start isAbsolute
  rw [head, first]

/-- A single name in place of a last piece that counts for nothing leads one
step further. -/
theorem components_of_pieces {path longer : Path} {name : String} (step : IsStep name)
    (start : longer.start = path.start) {front : List (List Char)}
    (own : path.pieces.filterMap pieceComponent? = front.filterMap pieceComponent?)
    (pieces : longer.pieces = front ++ [name.toList]) :
    longer.components = path.components ++ [.name name] := by
  have last : [name.toList].filterMap pieceComponent? = [.name name] := by
    rw [List.filterMap_cons, step.component]
    rfl
  unfold components
  rw [start, pieces, own, List.filterMap_append, last, List.append_assoc]

theorem start_of_isStep {name : String} (step : IsStep name) : (Path.mk name).start = [] := by
  have relative : ¬ (Path.mk name).isAbsolute = true := by
    intro absolute
    have head : name.toList.head? = some '/' := beq_iff_eq.mp absolute
    exact step.free (List.mem_of_head? head)
  have solid : ¬ (Path.mk name).pieces.head? = some ['.'] := by
    intro dot
    unfold pieces at dot
    rw [splitSlashes_of_notMem step.free] at dot
    exact step.ne_dot (Option.some.inj dot)
  unfold start
  rw [if_neg relative, if_neg solid]

/-- A file that is joined to a directory lies in it. -/
theorem components_join {name : String} (step : IsStep name) (directory : Path) :
    (directory.join name).components = directory.components ++ [.name name] := by
  have alone := splitSlashes_of_notMem step.free
  unfold join
  split
  · rename_i empty
    have none : directory.text = "" :=
      String.toList_eq_nil_iff.mp (List.getLast?_eq_none_iff.mp empty)
    obtain ⟨text⟩ := directory
    subst none
    have pieces : (Path.mk name).pieces = [] ++ [name.toList] := alone
    have nothing : (Path.mk "").pieces.filterMap pieceComponent? =
        ([] : List (List Char)).filterMap pieceComponent? := rfl
    exact components_of_pieces step (start_of_isStep step) nothing pieces
  · -- The piece after the final slash is empty.
    rename_i slash
    obtain ⟨chars, text⟩ := List.getLast?_eq_some_iff.mp slash
    obtain ⟨first, others, split, -⟩ := exists_splitSlashes_cons chars
    have joined : (directory.text ++ name).toList = chars ++ '/' :: name.toList := by
      rw [String.toList_append, text, List.append_assoc, List.singleton_append]
    have short : directory.pieces = splitSlashes chars ++ [[]] := by
      unfold pieces
      rw [text, splitSlashes_append_slash]
      rfl
    have long : (Path.mk (directory.text ++ name)).pieces =
        splitSlashes chars ++ [name.toList] := by
      unfold pieces
      rw [joined, splitSlashes_append_slash, alone]
    refine components_of_pieces step (start_congr ?_ ?_) ?_ long
    · rw [joined, text]
      cases chars <;> rfl
    · rw [long, short, split]
      rfl
    · rw [short, List.filterMap_append]
      exact List.append_nil _
  · rename_i last _ ends
    obtain ⟨first, others, split, -⟩ := exists_splitSlashes_cons directory.text.toList
    have joined : (directory.text ++ "/" ++ name).toList =
        directory.text.toList ++ '/' :: name.toList := by
      rw [String.toList_append, String.toList_append, List.append_assoc]
      rfl
    have long : (Path.mk (directory.text ++ "/" ++ name)).pieces =
        directory.pieces ++ [name.toList] := by
      unfold pieces
      rw [joined, splitSlashes_append_slash, alone]
    refine components_of_pieces step (start_congr ?_ ?_) rfl long
    · rw [joined]
      cases chars : directory.text.toList with
      | nil => rw [chars] at ends; cases ends
      | cons _ _ => rfl
    · have own : directory.pieces = first :: others := split
      rw [long, own]
      rfl

/-! ## Stems -/

theorem slash_notMem_fileName {path : Path} {name : String} (named : path.fileName? = some name) :
    '/' ∉ name.toList := by
  unfold fileName? at named
  split at named
  · rename_i text last
    cases named
    rcases List.mem_append.mp (List.mem_of_getLast? last) with first | piece
    · unfold start at first
      split at first
      · cases List.mem_singleton.mp first
      · split at first
        · cases List.mem_singleton.mp first
        · cases first
    · obtain ⟨piece, listed, stands⟩ := List.mem_filterMap.mp piece
      have free := slash_notMem_of_mem_splitSlashes listed
      unfold pieceComponent? at stands
      split at stands
      · cases stands
      · split at stands
        · cases stands
        · cases stands
          rw [String.toList_ofList]
          exact free
  · cases named

theorem mem_of_mem_splitName {name : String} {c : Char} (listed : c ∈ (splitName name).1.toList) :
    c ∈ name.toList := by
  unfold splitName at listed
  dsimp only at listed
  split at listed
  · exact listed
  · exact listed
  · rename_i dot before _ dropped
    rw [String.toList_ofList, List.mem_reverse] at listed
    have behind := List.mem_cons_of_mem dot listed
    rw [← dropped] at behind
    exact List.mem_reverse.mp (List.mem_of_mem_drop behind)

/-- The stem of a path has no slash. -/
theorem slash_notMem_stem {path : Path} {stem : String} (has : path.stem? = some stem) :
    '/' ∉ stem.toList := by
  obtain ⟨name, named, rfl⟩ := Option.map_eq_some_iff.mp has
  intro slash
  exact slash_notMem_fileName named (mem_of_mem_splitName slash)

end Path

end RegisterBank.Files
