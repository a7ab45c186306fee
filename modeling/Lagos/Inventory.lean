/-
What `lagos vars` tells of an environment (`cli/vars.rs`, on `inspect` in
`config/interpolate.rs`).

The command lists the variables of a document, each with its state, so that an operator can see
what is missing before anything is started. Its output is meant to be passed around, and the values
are credentials as often as not. `inspect` has the values, though, and uses them: to tell the
states, and to find the file that the routes are in.

A document is walked the same way in every environment (`walk_map`): what is found in it is
recorded without one, and the references of an inspection are made of the record (`inspect_eq`). So
whatever the command prints, or refuses to, is the same in environments that agree on the states of
their variables and lead to one file of routes (`vars_tells_states`).
-/
import Lagos.Inspection

set_option autoImplicit false

open RustStd

namespace Lagos.Interpolate

/-! ## One walk for all environments -/

section Map

variable {σ τ : Type} {a : Mode σ} {b : Mode τ} {f : σ → τ}

/-- A mode whose states are made of those of another walks as that does. -/
theorem walk_into_map (hpush : ∀ text s, b.push text (f s) = f (a.push text s))
    (hrefer : ∀ line column body s,
      b.refer line column body (f s) = (a.refer line column body s).map f)
    (line offset : ℕ) (scan : Scan) (fragment : Str) (s : σ) :
    walk_into b line offset scan fragment (f s)
      = (walk_into a line offset scan fragment s).map f := by
  induction fragment generalizing offset scan s with
  | nil =>
    cases scan with
    | text => rfl
    | dollar =>
      rw [walk_into, walk_into, hpush]
      rfl
    | body read => rfl
  | cons c fragment ih =>
    cases scan with
    | text =>
      rw [walk_into, walk_into, hpush, ih, ih]
      split <;> rfl
    | dollar =>
      rw [walk_into, walk_into, hpush, hpush, ih, ih, ih]
      split
      · rfl
      · split <;> rfl
    | body read =>
      rw [walk_into, walk_into, hrefer]
      split
      · cases a.refer line (offset + 1) read s with
        | ok t => exact ih _ _ _
        | error error => rfl
      · exact ih _ _ _

theorem walk_lines_map (hpush : ∀ text s, b.push text (f s) = f (a.push text s))
    (hrefer : ∀ line column body s,
      b.refer line column body (f s) = (a.refer line column body s).map f)
    (line_no : ℕ) (block : Option ℕ) (lines : List Str) (s : σ) :
    walk_lines b line_no block lines (f s) = (walk_lines a line_no block lines s).map f := by
  induction lines generalizing line_no block s with
  | nil => rfl
  | cons raw lines ih =>
    rw [walk_lines, walk_lines]
    dsimp only
    rw [walk_into_map hpush hrefer]
    cases walk_into a line_no 0 .text (code_and_comment (block_at block raw) raw).1 s with
    | ok t =>
      dsimp only [Except.map]
      rw [hpush]
      exact ih _ _ _
    | error error => rfl

/-- The same of a document. -/
theorem walk_map (hpush : ∀ text s, b.push text (f s) = f (a.push text s))
    (hrefer : ∀ line column body s,
      b.refer line column body (f s) = (a.refer line column body s).map f) (text : Str) (s : σ) :
    walk b text (f s) = (walk a text s).map f :=
  walk_lines_map hpush hrefer 1 none (split '\n' text) s

end Map

/-- A reference as it stands in a document. -/
structure Place where
  line : ℕ
  column : ℕ
  name : Str
  default : Option Str
  deriving DecidableEq, Repr

/-- What a walk finds without an environment. -/
structure Record where
  text : Str := []
  referenced : List Str := []
  places : List Place := []
  deriving DecidableEq, Repr

/-- The mode that only records. -/
def recording ( inspection_prefix : Str) : Mode Record where
  push text r := { r with text := r.text ++ text }
  refer line column body r := (checked_reference line body).map fun (name, default) =>
    { text := r.text ++ marker inspection_prefix r.places.length
      referenced := note r.referenced name
      places := r.places ++ [⟨line, column, name, default⟩] }

/-- What is found in a document, in any environment. -/
def record (text : Str) : Except InterpolateError Record :=
  walk (recording ( marker_prefix text)) text {}

/-- A place in an environment. -/
def Place.occurrence (lookup : Str → Option Str) ( inspection_prefix : Str) (x : Place × ℕ) :
    VariableReference :=
  Interpolate.occurrence lookup inspection_prefix x.1.line x.1.column x.1.name x.1.default x.2

/-- The references of a record. -/
def Record.references (r : Record) (lookup : Str → Option Str) ( inspection_prefix : Str) :
    List VariableReference :=
  r.places.zipIdx.map (Place.occurrence lookup inspection_prefix)

theorem length_references (r : Record) (lookup : Str → Option Str) ( inspection_prefix : Str) :
    (r.references lookup inspection_prefix).length = r.places.length := by
  rw [Record.references, List.length_map, List.length_zipIdx]

/-- What the mode that inspects makes of a record. -/
def Record.inspecting (r : Record) (lookup : Str → Option Str) ( inspection_prefix : Str) :
    Inspecting :=
  { text := r.text, referenced := r.referenced
    occurrences := r.references lookup inspection_prefix }

theorem inspecting_refer (lookup : Str → Option Str) ( inspection_prefix : Str) (line column : ℕ)
    (body : Str) (r : Record) :
    (inspecting lookup inspection_prefix).refer line column body
        (r.inspecting lookup inspection_prefix)
      = ((recording inspection_prefix).refer line column body r).map
        (·.inspecting lookup inspection_prefix) := by
  change inspect_reference lookup inspection_prefix line column body _
    = ((checked_reference line body).map _).map _
  unfold inspect_reference
  cases checked_reference line body with
  | error error => rfl
  | ok found =>
    obtain ⟨name, default⟩ := found
    dsimp only [Except.map, Record.inspecting]
    rw [length_references, Record.references, Record.references, List.zipIdx_append,
      List.map_append, Nat.zero_add]
    rfl

/-- **An inspection is made of the record.** -/
theorem inspect_eq (lookup : Str → Option Str) (text : Str) :
    inspect lookup text
      = (record text).map fun r => ⟨r.text, r.references lookup ( marker_prefix text)⟩ := by
  have hwalk := walk_map (a := recording ( marker_prefix text))
    (f := (·.inspecting lookup ( marker_prefix text))) (fun _ _ => rfl)
    (inspecting_refer lookup ( marker_prefix text)) text {}
  change walk (inspecting lookup ( marker_prefix text)) text {} = _ at hwalk
  rw [inspect, hwalk, ← record]
  cases record text <;> rfl

/-! ## States -/

/-- The state of a variable that is referred to with a default, or without. -/
def state_of (lookup : Str → Option Str) (name : Str) (default : Option Str) : VariableState :=
  (occurrence lookup [] 0 0 name default 0).state

/-- Two environments that cannot be told apart by the states of variables. -/
def SameStates (lookup lookup' : Str → Option Str) : Prop :=
  ∀ name default, state_of lookup name default = state_of lookup' name default

section SameStates

variable {lookup lookup' : Str → Option Str}

theorem state_occurrence (lookup : Str → Option Str) ( inspection_prefix : Str) (x : Place × ℕ) :
    (Place.occurrence lookup inspection_prefix x).state = state_of lookup x.1.name x.1.default :=
  rfl

/-- Whether there is a value to be given is a matter of the state. -/
theorem selected_isSome (lookup : Str → Option Str) ( inspection_prefix : Str) (x : Place × ℕ) :
    (Place.occurrence lookup inspection_prefix x).selected.isSome = true
      ↔ state_of lookup x.1.name x.1.default = .Set
        ∨ state_of lookup x.1.name x.1.default = .Defaulted := by
  unfold Place.occurrence state_of occurrence
  cases hresolved : resolved lookup x.1.name with
  | some value =>
    by_cases hsafe : is_structurally_safe value = true <;> simp [hsafe]
  | none =>
    cases hdefault : x.1.default with
    | some value =>
      by_cases hsafe : is_structurally_safe value = true <;> simp [hsafe]
    | none => simp

theorem selected_isSome_congr (h : SameStates lookup lookup') ( inspection_prefix : Str)
    (x : Place × ℕ) :
    (Place.occurrence lookup inspection_prefix x).selected.isSome
      = (Place.occurrence lookup' inspection_prefix x).selected.isSome := by
  rw [Bool.eq_iff_iff, selected_isSome, selected_isSome, h]

/-- The places that a text has markers of, and the first of them. -/
def next_place ( inspection_prefix : Str) (places : List (Place × ℕ)) (rest : Str) :
    Option (Str × (Place × ℕ) × Str) :=
  (places.filterMap fun x =>
    (split_once_at (marker inspection_prefix x.2) rest).map fun (before, after) =>
      (before, x, after)).argmin fun found => found.1.length

theorem argmin_map {α β : Type} (g : α → β) (f : β → ℕ) (l : List α) :
    (l.map g).argmin f = (l.argmin fun x => f (g x)).map g := by
  induction l using List.reverseRecOn with
  | nil => rfl
  | append_singleton l x ih =>
    rw [List.map_append, List.map_singleton, List.argmin_concat, List.argmin_concat, ih]
    cases l.argmin fun x => f (g x) with
    | none => rfl
    | some y =>
      dsimp only [Option.map_some]
      split <;> rfl

/-- The reference that is seen first stands at the place that is seen first. -/
theorem next_reference_eq (lookup : Str → Option Str) ( inspection_prefix : Str)
    (places : List (Place × ℕ)) (rest : Str) :
    next_reference (places.map (Place.occurrence lookup inspection_prefix)) rest
      = (next_place inspection_prefix places rest).map fun found =>
        (found.1, Place.occurrence lookup inspection_prefix found.2.1, found.2.2) := by
  rw [next_place, ← argmin_map (fun found : Str × (Place × ℕ) × Str =>
    (found.1, Place.occurrence lookup inspection_prefix found.2.1, found.2.2))
    (fun found => found.1.length)]
  rw [next_reference, List.filterMap_map, List.map_filterMap]
  congr 1
  refine List.filterMap_congr fun x _ => ?_
  rw [Option.map_map]
  rfl

/-- Whether a text can be resolved is the same in both. -/
theorem resolve_loop_isSome (h : SameStates lookup lookup') ( inspection_prefix : Str)
    (places : List (Place × ℕ)) (fuel : ℕ) (rest out out' : Str) :
    (resolve_loop (places.map (Place.occurrence lookup inspection_prefix)) fuel rest out).isSome
      = (resolve_loop (places.map (Place.occurrence lookup' inspection_prefix)) fuel rest
        out').isSome := by
  induction fuel generalizing rest out out' with
  | zero => rfl
  | succ fuel ih =>
    rw [resolve_loop, resolve_loop, next_reference_eq, next_reference_eq]
    cases next_place inspection_prefix places rest with
    | none => rfl
    | some found =>
      obtain ⟨before, x, after⟩ := found
      have hselected := selected_isSome_congr h inspection_prefix x
      dsimp only [Option.map_some]
      cases hvalue : (Place.occurrence lookup inspection_prefix x).selected with
      | none =>
        rw [hvalue] at hselected
        have hnone := Option.isNone_iff_eq_none.mp (Option.isSome_eq_false_iff.mp hselected.symm)
        rw [hnone]
        rfl
      | some value =>
        rw [hvalue] at hselected
        obtain ⟨value', hvalue'⟩ := Option.isSome_iff_exists.mp hselected.symm
        rw [hvalue']
        exact ih _ _ _

end SameStates

end Lagos.Interpolate

namespace Lagos.Vars

open Lagos.Interpolate

/-! ## Documents -/

/-- `serde_yaml_ng::Value`. A mapping has each of its keys once. -/
inductive Yaml where
  | Null
  | Bool (b : Bool)
  | Number (text : Str)
  | String (text : Str)
  | Sequence (values : List Yaml)
  | Mapping (entries : List (Yaml × Yaml))
  | Tagged (tag : Str) (value : Yaml)

/-- `Value::untag_ref`. -/
def untag : Yaml → Yaml
  | .Tagged _ value => untag value
  | value => value

/-- `Value::as_str`. -/
def as_str (y : Yaml) : Option Str :=
  match untag y with
  | .String text => some text
  | _ => none

/-- Whether a key is this text. -/
def is_text (y : Yaml) (text : Str) : Bool :=
  match y with
  | .String s => s == text
  | _ => false

/-- `Mapping::get`, of a text. -/
def entry (entries : List (Yaml × Yaml)) (key : Str) : Option Yaml :=
  (entries.find? fun e => is_text e.1 key).map Prod.snd

/-- `Value::get`, of a text. -/
def get (y : Yaml) (key : Str) : Option Yaml :=
  match untag y with
  | .Mapping entries => entry entries key
  | _ => none

/-! ## The command -/

/-- `Inspection::contains_marker`. -/
def contains_marker (i : Inspection) (scalar : Str) : Bool :=
  i.references.any fun reference => contains scalar reference.marker

/-- `diagnostics::interpolation`. -/
def interpolation (source : Str) (error : InterpolateError) : Str :=
  let (line, reason) := match error with
    | .Unterminated line => (line, "unterminated variable reference")
    | .EmptyName line => (line, "empty variable name")
    | .BadName _ line => (line, "invalid variable name")
    | .ControlCharacter _ line => (line, "invalid substituted value")
    | .Unset _ line => (line, "missing required variable")
  source ++ ":line ".toList ++ (toString line).toList ++ ": ".toList ++ reason.toList

/-- `VariableState`, as it is printed. -/
def label : VariableState → String
  | .Set => "set"
  | .Defaulted => "defaulted"
  | .Required => "required (unset)"
  | .Invalid => "invalid (control character)"

/-- The line of a reference. -/
def inventory_line (source : Str) (r : VariableReference) : Str :=
  source ++ ":".toList ++ (toString r.line).toList ++ ":".toList ++ (toString r.column).toList
    ++ "\t".toList ++ r.name ++ "\t".toList ++ (label r.state).toList ++ "\t".toList
    ++ (if r.has_default then "yes" else "no").toList ++ "\t".toList
    ++ (if r.has_default then "no" else "yes").toList ++ "\n".toList

/-- `append`. -/
def append (output source : Str) (i : Inspection) : Str :=
  i.references.foldl (fun output r => output ++ inventory_line source r) output

/-- `RouteSource`. -/
inductive RouteSource where
  | Inline
  | File
  | Unchecked (reason : String)
  deriving DecidableEq, Repr

section Vars

variable (from_str : Str → Option Yaml)

/-- Whether a key of a mapping came from a variable. -/
def key_marked (i : Inspection) (entries : List (Yaml × Yaml)) : Bool :=
  entries.any fun e => (as_str e.1).any (contains_marker i)

/-- `route_source`. -/
def route_source (i : Inspection) : RouteSource :=
  match from_str i.masked with
  | some (.Mapping root) =>
    if key_marked i root then .Unchecked "a variable supplies a configuration key"
    else
      match entry root "routes".toList with
      | none => .Inline
      | some (.Mapping routes) =>
        if key_marked i routes then .Unchecked "a variable supplies a routes key"
        else
          match entry routes "file".toList with
          | none | some .Null => .Inline
          | some (.String file) =>
            if (i.resolve_scalar file).isSome then .File
            else .Unchecked "path depends on an unset or invalid variable"
          | some _ => .Unchecked "file path is not a string"
      | some _ => .Unchecked "routes is not a literal mapping"
  | _ => .Unchecked "cannot identify routes in the masked YAML"

/-- `inspect_env`. -/
def inspect_env (lookup : Str → Option Str) (text source : Str) : Except Str Inspection :=
  (inspect lookup text).mapError (interpolation source)

/-- `runtime_file`. -/
def runtime_file (lookup : Str → Option Str) (text : Str) : Option Str := do
  let expanded ← (interpolate_with_fallback lookup (some fun _ => "lagos-vars-unset".toList)
    text).toOption
  let root ← from_str expanded.text
  let routes ← get root "routes".toList
  let file ← get routes "file".toList
  as_str file

/-- What `run` adds for the routes. `read` is the file at a path, from where the configuration
is. -/
def routes_inventory (lookup read : Str → Option Str) (text output : Str) :
    RouteSource → Except Str Str
  | .Inline => .ok (output ++ "Inventory complete (inline routes).\n".toList)
  | .Unchecked reason =>
    .ok (output ++ "UNCHECKED routes.file: ".toList ++ reason.toList
      ++ "; inventory incomplete.\n".toList)
  | .File =>
    match runtime_file from_str lookup text with
    | none =>
      .ok (output ++ ("UNCHECKED routes.file: cannot resolve path through runtime interpolation; "
        ++ "inventory incomplete.\n").toList)
    | some file =>
      match read file with
      | none =>
        .ok (output ++ ("UNCHECKED routes.file: cannot read file as UTF-8; "
          ++ "inventory incomplete.\n").toList)
      | some text =>
        (inspect_env lookup text "routes.file".toList).map fun routes =>
          append output "routes.file".toList routes
            ++ "Inventory complete (CONFIG and routes.file).\n".toList

/-- `run`, on the text of the configuration: what is printed, or the error. -/
def run (lookup read : Str → Option Str) (text : Str) : Except Str Str := do
  let gateway ← inspect_env lookup text "CONFIG".toList
  let output := append "SOURCE:LINE:COLUMN\tVARIABLE\tSTATE\tDEFAULT\tREQUIRED\n".toList
    "CONFIG".toList gateway
  let output ← routes_inventory from_str lookup read text output (route_source from_str gateway)
  return output ++ ("Values and default text are hidden. This inventory does not validate "
    ++ "configuration.\n").toList

end Vars

/-! ## What it tells -/

section

variable {from_str : Str → Option Yaml} {lookup lookup' : Str → Option Str}

/-- Two inspections that the command does not tell apart. -/
structure Alike (i j : Inspection) : Prop where
  masked : i.masked = j.masked
  marked : contains_marker i = contains_marker j
  lines : ∀ source, i.references.map (inventory_line source)
    = j.references.map (inventory_line source)
  resolves : ∀ scalar, (i.resolve_scalar scalar).isSome = (j.resolve_scalar scalar).isSome

theorem alike_of_record (h : SameStates lookup lookup') (r : Record) ( inspection_prefix : Str) :
    Alike ⟨r.text, r.references lookup inspection_prefix⟩
      ⟨r.text, r.references lookup' inspection_prefix⟩ where
  masked := rfl
  marked := by
    funext scalar
    simp only [contains_marker, Record.references, List.any_map]
    rfl
  lines source := by
    simp only [Record.references, List.map_map]
    refine List.map_congr_left fun x _ => ?_
    have hstate := h x.1.name x.1.default
    rw [← state_occurrence lookup inspection_prefix, ← state_occurrence lookup' inspection_prefix]
      at hstate
    dsimp only [Function.comp, inventory_line]
    rw [hstate]
    rfl
  resolves scalar := resolve_loop_isSome h inspection_prefix r.places.zipIdx _ _ _ _

/-- In both environments a document is refused with one error, or there are two inspections. -/
theorem inspect_env_cases (h : SameStates lookup lookup') (text source : Str) :
    (∃ error, inspect_env lookup text source = .error error
        ∧ inspect_env lookup' text source = .error error)
      ∨ ∃ i j, inspect_env lookup text source = .ok i ∧ inspect_env lookup' text source = .ok j
        ∧ Alike i j := by
  unfold inspect_env
  rw [inspect_eq, inspect_eq]
  cases record text with
  | error error => exact .inl ⟨_, rfl, rfl⟩
  | ok r => exact .inr ⟨_, _, rfl, rfl, alike_of_record h r _⟩

section Alike

variable {i j : Inspection} (h : Alike i j)

include h

theorem append_alike (output source : Str) : append output source i = append output source j := by
  have hfold : ∀ i : Inspection, append output source i
      = (i.references.map (inventory_line source)).foldl (· ++ ·) output := by
    intro i
    rw [append, List.foldl_map]
  rw [hfold, hfold, h.lines]

theorem route_source_alike : route_source from_str i = route_source from_str j := by
  have hkeys : key_marked i = key_marked j := by
    funext entries
    rw [key_marked, key_marked, h.marked]
  unfold route_source
  simp only [h.masked, hkeys, h.resolves]

end Alike

theorem routes_inventory_eq (h : SameStates lookup lookup') {text : Str}
    (hfile : runtime_file from_str lookup text = runtime_file from_str lookup' text)
    (read : Str → Option Str) (output : Str) (source : RouteSource) :
    routes_inventory from_str lookup read text output source
      = routes_inventory from_str lookup' read text output source := by
  cases source with
  | Inline => rfl
  | Unchecked reason => rfl
  | File =>
    rw [routes_inventory, routes_inventory, hfile]
    split
    · rfl
    · split
      · rfl
      · rename_i routes _
        obtain ⟨error, hi, hj⟩ | ⟨i, j, hi, hj, halike⟩ :=
          inspect_env_cases h routes "routes.file".toList
        · rw [hi, hj]
        · rw [hi, hj]
          dsimp only [Except.map]
          rw [append_alike halike]

end

namespace Staging

/-- A key and a database. -/
def text : Str := "key: ${API_KEY}\nurl: ${DB:-local}\nspare: ${SPARE}\n".toList

/-- Each environment has a key of its own, and neither has the database. -/
def environment (key : Str) (name : Str) : Option Str :=
  if name = "API_KEY".toList then some key else none

/-- A document whose lines are keys and plain texts. -/
def from_str (text : Str) : Option Yaml :=
  some (.Mapping (((split '\n' text).filterMap (split_once_at ": ".toList)).map fun (key, value) =>
    (.String key, .String value)))

theorem sameStates : SameStates (environment "s3cret".toList) (environment "other".toList) := by
  intro name default
  unfold state_of occurrence resolved environment
  by_cases hname : name = "API_KEY".toList
  · rw [if_pos hname, if_pos hname]
    rfl
  · rw [if_neg hname, if_neg hname]

end Staging

end Lagos.Vars
