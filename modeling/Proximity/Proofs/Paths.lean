import Mathlib.Data.List.DropRight
import Mathlib.Data.String.Basic
import Proximity.Files.Store

/-!
# The parts of paths

A path is cut at its slashes, and putting a slash between the parts gives the path
back.  So what is done to the text of a path can be said of its steps: the temporary
path beside a path has the last part of the path with an ending, and the parent path
has all steps but the last.

## Main results

* `Route.intercalate_splitOn`, `Route.splitOn_intercalate` — cutting and joining.
* `Route.ofPath_eq` — the route of a path by its parts.
* `Route.PlainName.ofPath` — the route of a name.
* `Route.steps_temporaryPath`, `Route.origin_temporaryPath` — temporary paths.
* `Route.steps_parentPath`, `Route.origin_parentPath`, `Route.isPath_parentPath` — parent
  paths.
-/

namespace Proximity

namespace Route

/-! ## Cutting and joining -/

/-- Cutting at a text of one character is cutting at the character. -/
private theorem splitOnAux_slash (s : String) (b i : String.Pos.Raw) (r : List String) :
    String.splitOnAux s "/" b i 0 r = String.splitAux s (· == '/') b i r := by
  have hslash : String.Pos.Raw.get "/" 0 = '/' := by decide
  have hend : String.Pos.Raw.atEnd "/" (String.Pos.Raw.next "/" 0) = true := by decide
  fun_induction String.splitAux s (· == '/') b i r with
  | case1 b i r hdone => rw [String.splitOnAux, if_pos hdone]
  | case2 b i r hmore _ hfound next ih =>
      have hget : i.get s = '/' := by simpa using hfound
      -- the whole separator was met, so the part ends where the character begins
      have hback : (i.next s).unoffsetBy (String.Pos.Raw.next "/" 0) = i := by
        rw [String.Pos.Raw.ext_iff]
        simp [String.Pos.Raw.next, hget, hslash]
      rw [String.splitOnAux, if_neg hmore, hslash, if_pos hfound]
      dsimp only
      rw [if_pos hend, hback]
      exact ih
  | case3 b i r hmore _ hother ih =>
      have hback : i.unoffsetBy 0 = i := by
        rw [String.Pos.Raw.ext_iff]
        simp
      rw [String.splitOnAux, if_neg hmore, hslash, if_neg hother, hback]
      exact ih

/-- The parts of a text are those of the list of its characters. -/
theorem splitOn_slash (path : String) :
    path.splitOn "/" = (path.toList.splitOn '/').map String.ofList := by
  rw [List.splitOn_eq_splitOnP, ← String.splitToList_of_valid, String.splitToList,
    ← splitOnAux_slash]
  rfl

theorem splitOn_ne_nil (path : String) : path.splitOn "/" ≠ [] := by
  rw [splitOn_slash, Ne, List.map_eq_nil_iff]
  exact List.splitOn_ne_nil _ _

private theorem not_mem_of_mem_splitOn_list {l part : List Char}
    (h : part ∈ l.splitOn '/') : '/' ∉ part := by
  induction l generalizing part with
  | nil =>
      rw [List.splitOn_nil, List.mem_singleton] at h
      subst h
      exact List.not_mem_nil
  | cons c l ih =>
      rw [List.splitOn_cons_eq_if_modifyHead] at h
      split at h
      · rcases List.mem_cons.1 h with rfl | h
        · exact List.not_mem_nil
        · exact ih h
      · rename_i hc
        cases hsplit : l.splitOn '/' with
        | nil => exact absurd hsplit (List.splitOn_ne_nil _ _)
        | cons first rest =>
            rw [hsplit] at h ih
            rcases List.mem_cons.1 h with rfl | h
            · have hfirst := ih List.mem_cons_self
              rintro (_ | ⟨_, hmem⟩)
              · exact hc (beq_self_eq_true _)
              · exact hfirst hmem
            · exact ih (List.mem_cons_of_mem first h)

/-- No part has a slash. -/
theorem not_mem_of_mem_splitOn {path part : String} (h : part ∈ path.splitOn "/") :
    '/' ∉ part.toList := by
  rw [splitOn_slash] at h
  obtain ⟨l, hl, rfl⟩ := List.mem_map.1 h
  rw [String.toList_ofList]
  exact not_mem_of_mem_splitOn_list hl

theorem intercalate_splitOn (path : String) : "/".intercalate (path.splitOn "/") = path := by
  have hback : String.toList ∘ String.ofList = id := funext fun _ => String.toList_ofList
  rw [← String.toList_inj, splitOn_slash, String.toList_intercalate, List.map_map, hback,
    List.map_id]
  exact List.intercalate_splitOn '/'

theorem splitOn_intercalate {parts : List String} (hne : parts ≠ [])
    (hparts : ∀ part ∈ parts, '/' ∉ part.toList) :
    ("/".intercalate parts).splitOn "/" = parts := by
  have hslash : "/".toList = ['/'] := rfl
  have hback : String.ofList ∘ String.toList = id := funext fun _ => String.ofList_toList
  have hlists : ∀ l ∈ parts.map String.toList, '/' ∉ l := by
    intro l hl
    obtain ⟨part, hpart, rfl⟩ := List.mem_map.1 hl
    exact hparts part hpart
  have hsome : parts.map String.toList ≠ [] := fun h => hne (List.map_eq_nil_iff.1 h)
  rw [splitOn_slash, String.toList_intercalate, hslash,
    List.splitOn_intercalate '/' hlists hsome, List.map_map, hback, List.map_id]

/-- What is put at the end of a path, without a slash, is put at the end of its last
part. -/
theorem splitOn_append {path last text : String} {init : List String}
    (hparts : path.splitOn "/" = init ++ [last]) (htext : '/' ∉ text.toList) :
    (path ++ text).splitOn "/" = init ++ [last ++ text] := by
  have hjoin : path ++ text = "/".intercalate (init ++ [last ++ text]) := by
    rw [← intercalate_splitOn path, hparts]
    cases init with
    | nil => rw [List.nil_append, List.nil_append, String.intercalate_singleton,
        String.intercalate_singleton]
    | cons first init =>
        have hinit : first :: init ≠ [] := List.cons_ne_nil _ _
        rw [String.intercalate_append_of_ne_nil hinit (List.cons_ne_nil _ _),
          String.intercalate_append_of_ne_nil hinit (List.cons_ne_nil _ _),
          String.intercalate_singleton, String.intercalate_singleton, String.append_assoc]
  rw [hjoin]
  refine splitOn_intercalate (by simp) fun part hpart => ?_
  rcases List.mem_append.1 hpart with hinit | hlast
  · exact not_mem_of_mem_splitOn (hparts ▸ List.mem_append_left _ hinit)
  · obtain rfl := List.mem_singleton.1 hlast
    have hfree : '/' ∉ last.toList :=
      not_mem_of_mem_splitOn (hparts ▸ List.mem_append_right _ (List.mem_singleton_self last))
    rw [String.toList_append, List.mem_append]
    exact not_or.2 ⟨hfree, htext⟩

/-- A path is absolute if its first part is empty and not the only one. -/
theorem startsWith_slash {path first : String} {rest : List String}
    (hparts : path.splitOn "/" = first :: rest) :
    path.startsWith "/" = true ↔ first = "" ∧ rest ≠ [] := by
  have hfree : '/' ∉ first.toList :=
    not_mem_of_mem_splitOn (hparts ▸ List.mem_cons_self)
  have hslash : "/".toList = ['/'] := rfl
  have hjoin : path = "/".intercalate (first :: rest) := hparts ▸ (intercalate_splitOn path).symm
  rw [String.startsWith_string_iff, hslash, hjoin]
  by_cases hrest : rest = []
  · subst hrest
    rw [String.intercalate_singleton]
    simp only [ne_eq, not_true_eq_false, and_false, iff_false]
    exact fun hbegins => hfree (hbegins.subset (List.mem_singleton_self _))
  · rw [String.intercalate_cons_of_ne_nil hrest, String.toList_append, String.toList_append,
      hslash]
    cases hchars : first.toList with
    | nil =>
        have hempty : first = "" := String.toList_eq_nil_iff.1 hchars
        simp [hempty, hrest]
    | cons c chars =>
        have hne : first ≠ "" := by
          rintro rfl
          cases hchars
        have hc : '/' ≠ c := fun heq => hfree (hchars ▸ heq ▸ List.mem_cons_self)
        simp [hne, hc]

/-- The route that some parts make. -/
def ofParts (parts : List String) : Route :=
  { origin := if parts.head? = some "" ∧ parts.tail ≠ [] then Place.root else Place.start
    steps := parts.filter fun part => !isIdle part
    asDirectory := isIdle (parts.getLastD "") }

/-- The route of a path is that of its parts. -/
theorem ofPath_eq (path : String) : ofPath path = ofParts (path.splitOn "/") := by
  rw [ofPath, ofParts]
  cases hparts : path.splitOn "/" with
  | nil => exact absurd hparts (splitOn_ne_nil path)
  | cons first rest => simp [startsWith_slash hparts]

/-- A text that as a path is the one step to itself. -/
def PlainName (name : String) : Prop :=
  '/' ∉ name.toList ∧ isIdle name = false ∧ name ≠ Place.upward ∧ isPath name = true ∧
    isName name = true

instance (name : String) : Decidable (PlainName name) :=
  inferInstanceAs (Decidable (_ ∧ _))

theorem PlainName.splitOn {name : String} (h : PlainName name) : name.splitOn "/" = [name] := by
  have hjoin := splitOn_intercalate (List.cons_ne_nil name []) fun part hpart => by
    rw [List.mem_singleton.1 hpart]
    exact h.1
  rwa [String.intercalate_singleton] at hjoin

theorem PlainName.ofPath {name : String} (h : PlainName name) :
    ofPath name = ⟨Place.start, [name], false⟩ := by
  rw [ofPath_eq, h.splitOn]
  simp [ofParts, h.2.1]

/-! ## Temporary paths -/

private theorem exists_parts (path : String) :
    ∃ init last, path.splitOn "/" = init ++ [last] :=
  ⟨_, _, (List.dropLast_append_getLast (splitOn_ne_nil path)).symm⟩

/-- A part with the ending of temporary paths leads somewhere. -/
private theorem temporaryName_ne {part : String} :
    isIdle (part ++ ".tmp") = false ∧ part ++ ".tmp" ≠ Place.upward ∧ part ++ ".tmp" ≠ part := by
  have hlength : (part ++ ".tmp").length = part.length + 4 := String.length_append _ _
  have hne : ∀ other : String, other.length < part.length + 4 → part ++ ".tmp" ≠ other := by
    rintro other hlt rfl
    omega
  refine ⟨?_, hne _ ?_, hne _ (by omega)⟩
  · rw [isIdle, Bool.or_eq_false_iff, beq_eq_false_iff_ne, beq_eq_false_iff_ne]
    refine ⟨hne _ ?_, hne _ ?_⟩
    · show 0 < part.length + 4
      omega
    · show 1 < part.length + 4
      omega
  · show 2 < part.length + 4
    omega

private theorem splitOn_temporaryPath {path last : String} {init : List String}
    (hparts : path.splitOn "/" = init ++ [last]) :
    (FileTree.temporaryPath path).splitOn "/" = init ++ [last ++ ".tmp"] :=
  splitOn_append hparts (by decide)

/-- The temporary path beside a path has one step more if the path can only mean a
directory, and another last step if not. -/
theorem steps_temporaryPath (path : String) :
    ∃ name, name ≠ Place.upward ∧
      ((ofPath (FileTree.temporaryPath path)).steps = (ofPath path).steps ++ [name] ∨
        ∃ init last, name ≠ last ∧ (ofPath path).steps = init ++ [last] ∧
          (ofPath (FileTree.temporaryPath path)).steps = init ++ [name]) := by
  obtain ⟨init, last, hparts⟩ := exists_parts path
  obtain ⟨hleads, hup, hlast⟩ := @temporaryName_ne last
  refine ⟨last ++ ".tmp", hup, ?_⟩
  simp only [ofPath, splitOn_temporaryPath hparts, hparts, List.filter_append,
    List.filter_singleton, hleads]
  cases hidle : isIdle last with
  | true => simp
  | false => exact .inr ⟨_, last, hlast, rfl, rfl⟩

theorem origin_temporaryPath (path : String) :
    (ofPath (FileTree.temporaryPath path)).origin = (ofPath path).origin := by
  obtain ⟨init, last, hparts⟩ := exists_parts path
  have htemporary := splitOn_temporaryPath hparts
  rw [ofPath_eq, ofPath_eq, hparts, htemporary]
  cases init <;> simp [ofParts]

/-! ## Parent paths -/

private theorem trimEnd_append (init : List String) (last : String) :
    trimEnd (init ++ [last]) = if isIdle last then trimEnd init else init ++ [last] :=
  List.rdropWhile_concat isIdle init last

private theorem trimEnd_isPrefix (parts : List String) : trimEnd parts <+: parts :=
  List.rdropWhile_prefix isIdle parts

/-- Parts that lead nowhere are no steps. -/
private theorem filter_trimEnd (parts : List String) :
    (trimEnd parts).filter (fun part => !isIdle part) =
      parts.filter fun part => !isIdle part := by
  induction parts using List.reverseRecOn with
  | nil => rfl
  | append_singleton init last ih =>
      rw [trimEnd_append]
      split
      · rename_i hidle
        rw [ih, List.filter_append, List.filter_singleton]
        simp [hidle]
      · rfl

/-- What is left is nothing or ends in a step. -/
private theorem trimEnd_cases (parts : List String) :
    trimEnd parts = [] ∨ ∃ init last, trimEnd parts = init ++ [last] ∧ isIdle last = false := by
  induction parts using List.reverseRecOn with
  | nil => exact .inl rfl
  | append_singleton init last ih =>
      rw [trimEnd_append]
      split
      · exact ih
      · rename_i hleads
        exact .inr ⟨init, last, rfl, Bool.eq_false_iff.2 hleads⟩

/-- The parts of a parent path before they are joined. -/
private def parentParts (path : String) : List String :=
  trimEnd (trimEnd (path.splitOn "/")).dropLast

private theorem parentParts_isPrefix (path : String) : parentParts path <+: path.splitOn "/" := by
  have hinit := List.dropLast_prefix (trimEnd (path.splitOn "/"))
  exact (trimEnd_isPrefix _).trans (hinit.trans (trimEnd_isPrefix _))

private theorem filter_parentParts (path : String) :
    (parentParts path).filter (fun part => !isIdle part) = (ofPath path).steps.dropLast := by
  have hsteps : (ofPath path).steps =
      (trimEnd (path.splitOn "/")).filter fun part => !isIdle part :=
    (filter_trimEnd _).symm
  rw [hsteps, parentParts, filter_trimEnd]
  rcases trimEnd_cases (path.splitOn "/") with hnone | ⟨init, last, hsome, hleads⟩
  · rw [hnone]
    rfl
  · rw [hsome, List.dropLast_concat, List.filter_append, List.filter_singleton]
    simp [hleads]

/-- The parts of a parent path, if it has any. -/
private theorem splitOn_parentPath {path : String} (hne : parentParts path ≠ []) :
    (parentPath path).splitOn "/" = parentParts path :=
  splitOn_intercalate hne fun _ hpart =>
    not_mem_of_mem_splitOn ((parentParts_isPrefix path).subset hpart)

private theorem parentPath_eq_empty {path : String} (h : parentParts path = []) :
    parentPath path = "" := by
  rw [parentPath, ← parentParts, h, String.intercalate_nil]

/-- A parent path has all steps but the last. -/
theorem steps_parentPath (path : String) :
    (ofPath (parentPath path)).steps = (ofPath path).steps.dropLast := by
  rw [← filter_parentParts]
  by_cases hne : parentParts path = []
  · have hparts : "".splitOn "/" = [""] := by
      rw [splitOn_slash]
      rfl
    rw [parentPath_eq_empty hne, hne, ofPath, hparts]
    rfl
  · rw [ofPath, splitOn_parentPath hne]

/-- Both start from the same place, unless the parent path has no steps. -/
theorem origin_parentPath {path : String} (h : (ofPath path).steps.dropLast ≠ []) :
    (ofPath (parentPath path)).origin = (ofPath path).origin := by
  have hne : parentParts path ≠ [] := by
    intro hnil
    rw [← filter_parentParts, hnil] at h
    exact h rfl
  obtain ⟨rest, hrest⟩ := parentParts_isPrefix path
  obtain ⟨init, last, hparts, hleads⟩ := (trimEnd_cases _).resolve_left hne
  have hparent := splitOn_parentPath hne
  rw [parentParts, hparts] at hparent hrest
  rw [ofPath_eq, ofPath_eq, hparent, ← hrest]
  cases init with
  | nil =>
      have hlast : last ≠ "" := by
        rintro rfl
        cases hleads
      simp [ofParts, hlast]
  | cons first init => simp [ofParts]

/-! ## Lengths -/

/-- The beginning of a path is a path. -/
theorem isPath_of_append {path text : String} (h : isPath (path ++ text) = true) :
    isPath path = true := by
  simp only [isPath, Bool.and_eq_true, decide_eq_true_eq, List.all_eq_true,
    String.utf8ByteSize_append, String.toList_append, List.mem_append] at h ⊢
  exact ⟨by omega, fun c hc => h.2 c (.inl hc)⟩

theorem isPath_parentPath {path : String} (h : isPath path = true) :
    isPath (parentPath path) = true := by
  by_cases hne : parentParts path = []
  · rw [parentPath_eq_empty hne]
    decide
  · obtain ⟨rest, hrest⟩ := parentParts_isPrefix path
    rw [← intercalate_splitOn path, ← hrest] at h
    cases rest with
    | nil =>
        rw [List.append_nil] at h
        exact h
    | cons part rest =>
        rw [String.intercalate_append_of_ne_nil hne (List.cons_ne_nil _ _),
          String.append_assoc] at h
        exact isPath_of_append h

end Route

end Proximity
