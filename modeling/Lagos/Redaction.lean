/-
What `lagos effective` shows of a configuration (`cli/effective.rs`).

The command projects the configuration that is in force, so that it can be compared and shared. A
setting is shown where it stands in the document in plain words, and hidden where anything was
substituted for it. Substitution happens before the document is parsed, and a value may hold a piece
of a mapping, so where a setting came from is not to be seen in what was parsed. `Source::field`
follows its path through two parses of one text, with markers in the place of the references and
with their values, and shows nothing unless the two lead to the same thing.

Then it is not from the environment, nor from a default (`shown_not_substituted`): the setting is
shown alike for all environments, and for all documents that differ between the braces of their
references only. The same goes for the policies of a route, which may come from the defaults for all
routes (`policy_not_substituted`).

What the configuration makes of a part of the document is left open, but for that it does not depend
on the order of keys.
-/
import Lagos.InspectionAgrees
import Lagos.Identity
import Lagos.Inventory
import Lagos.Routes

set_option autoImplicit false

open RustStd

namespace Lagos.Vars

open Lagos.Auth Lagos.Config Lagos.Interpolate Lagos.Routes

/-! ## Parts of a document -/

mutual

/-- `Value::eq`. Mappings are equal in any order. -/
def yaml_eq : Yaml → Yaml → Bool
  | .Null, .Null => true
  | .Bool b, .Bool b' => b == b'
  | .Number n, .Number n' => n == n'
  | .String s, .String s' => s == s'
  | .Sequence values, .Sequence values' => sequence_eq values values'
  | .Mapping entries, .Mapping entries' =>
    entries.length == entries'.length && entries_in entries entries'
  | .Tagged tag value, .Tagged tag' value' => tag == tag' && yaml_eq value value'
  | _, _ => false

def sequence_eq : List Yaml → List Yaml → Bool
  | [], [] => true
  | value :: values, value' :: values' => yaml_eq value value' && sequence_eq values values'
  | _, _ => false

def entries_in : List (Yaml × Yaml) → List (Yaml × Yaml) → Bool
  | [], _ => true
  | entry :: entries, entries' => entry_in entry entries' && entries_in entries entries'

def entry_in : Yaml × Yaml → List (Yaml × Yaml) → Bool
  | (key, value), entries' =>
    (entries'.find? fun e => yaml_eq key e.1).any fun e => yaml_eq value e.2

end

mutual

/-- `Source::contains_interpolation`, for the texts that have a marker. -/
def contains_interpolation (marked : Str → Bool) : Yaml → Bool
  | .String text => marked text
  | .Sequence values => any_interpolation marked values
  | .Mapping entries => any_entry marked entries
  | .Tagged _ value => contains_interpolation marked value
  | _ => false

def any_interpolation (marked : Str → Bool) : List Yaml → Bool
  | [] => false
  | value :: values => contains_interpolation marked value || any_interpolation marked values

def any_entry (marked : Str → Bool) : List (Yaml × Yaml) → Bool
  | [] => false
  | entry :: entries => entry_interpolation marked entry || any_entry marked entries

def entry_interpolation (marked : Str → Bool) : Yaml × Yaml → Bool
  | (key, value) => contains_interpolation marked key || contains_interpolation marked value

end

/-! ## Settings -/

/-- `Source`. -/
structure Source where
  label : Str
  inspection : Inspection
  masked : Option Yaml
  expanded : Option Yaml

/-- `Source::read`. -/
def Source.read (from_str : Str → Option Yaml) (lookup : Str → Option Str) (label text : Str) :
    Except Str Source := do
  let inspection ← inspect_env lookup text label
  let expanded ← (interpolate lookup text).mapError (interpolation label)
  return {
    label := label
    inspection := inspection
    masked := from_str inspection.masked
    expanded := from_str expanded.text }

/-- Where a path has led to in the masked document, and whether it may have been led astray. -/
structure Descent where
  node : Option Yaml
  tainted : Bool

/-- One part of a path. An interpolated key may have been any key, and what is no mapping has no
fields. -/
def Descent.step (marked : Str → Bool) (d : Descent) (part : Str) : Descent :=
  match d.node with
  | none => d
  | some (.Mapping entries) =>
    ⟨entry entries part, d.tainted || entries.any fun e => contains_interpolation marked e.1⟩
  | some current => ⟨none, d.tainted || contains_interpolation marked current⟩

/-- The part of the expanded document that a path leads to. -/
def Source.at (s : Source) (path : Str) : Option Yaml :=
  (split '.' path).foldl (fun node part => node.bind (get · part)) s.expanded

/-- Where a path leads in the masked document. -/
def Source.descend (s : Source) (path : Str) : Descent :=
  (split '.' path).foldl (Descent.step (contains_marker s.inspection))
    ⟨s.masked, s.masked.isNone || s.expanded.isNone⟩

/-- `Option::eq`. -/
def node_eq : Option Yaml → Option Yaml → Bool
  | none, none => true
  | some node, some node' => yaml_eq node node'
  | _, _ => false

/-- A setting as it is shown. -/
structure Field where
  value : Value
  origin : Str
  redacted : Bool

def REDACTED : Value := .String "<redacted>".toList

/-- `Source::field`. -/
def Source.field (s : Source) (path : Str) (safe : Option Value) : Field :=
  let d := s.descend path
  let tainted := d.tainted || d.node.any (contains_interpolation (contains_marker s.inspection))
    || !node_eq d.node (s.at path)
  let redacted := tainted || safe.isNone
  { value := if redacted then REDACTED else safe.getD .Null
    origin := if d.node.isSome || tainted then s.label ++ '.' :: path else "built-in".toList
    redacted := redacted }

/-- The setting that a policy is shown as, by where it was found. -/
def policy_field (s rs : Source) (path name : Str) (origin : PolicyOrigin) (value : Value) :
    Field :=
  match origin with
  | .Route => rs.field path (some value)
  | .GlobalDefaults => s.field ("defaults.".toList ++ name) (some value)
  | .BuiltIn => ⟨value, "built-in".toList, false⟩

/-- `policy`. A route that was interpolated may have lost a policy of its own. -/
def policy (s rs : Source) (path name : Str) (origin : PolicyOrigin) (value : Value) :
    Field × PolicyOrigin :=
  let field := policy_field s rs path name origin value
  let guard := rs.field path (some .Null)
  let redacted := guard.redacted || field.redacted
  ({ value := if redacted then REDACTED else field.value
     origin := field.origin
     redacted := redacted }, origin)

/-! ## What is shown -/

/-- Two documents that differ between the braces of their references only. -/
def SameOutline (text text' : Str) : Prop :=
  outline text = outline text' ∧ marker_prefix text = marker_prefix text'

/-- What a configuration makes of a part of a document does not depend on the order of keys. -/
def Unordered {α : Type} (project : Option Yaml → α) : Prop :=
  ∀ node node', yaml_eq node node' = true → project (some node) = project (some node')

section

variable {from_str : Str → Option Yaml} {lookup lookup' : Str → Option Str}
  {label text text' path : Str} {s s' : Source}

/-- The markers of an inspection are those of the holes. -/
theorem contains_marker_iff {i : Inspection} {o : List (Option Char)}
    (hi : inspect lookup text = .ok i) (ho : outline text = .ok o) (scalar : Str) :
    contains_marker i scalar = true
      ↔ ∃ n < Markers.holes o, contains scalar (marker ( marker_prefix text) n) = true := by
  obtain ⟨t, -, rfl, houtline, htraced⟩ := inspect_traced hi
  rw [ho] at houtline
  cases houtline
  unfold contains_marker
  rw [List.any_eq_true]
  constructor
  · rintro ⟨reference, hmem, hcontains⟩
    obtain ⟨n, hn⟩ := List.getElem?_of_mem hmem
    refine ⟨n, ?_, ?_⟩
    · rw [htraced.holes]
      exact (List.getElem?_eq_some_iff.mp hn).1
    · rwa [htraced.marked n reference hn] at hcontains
  · rintro ⟨n, hn, hcontains⟩
    rw [htraced.holes] at hn
    have hget := List.getElem?_eq_getElem hn
    refine ⟨_, List.getElem_mem hn, ?_⟩
    rwa [htraced.marked n _ hget]

/-- The masked text is the outline with the markers in its holes. -/
theorem masked_eq_put {i : Inspection} (hi : inspect lookup text = .ok i) :
    ∃ o, outline text = .ok o ∧ i.masked = Markers.put (marker ( marker_prefix text)) 0 o := by
  obtain ⟨t, -, rfl, houtline, htraced⟩ := inspect_traced hi
  exact ⟨t.2, houtline, htraced.text⟩

/-- What two sources of one outline have in common. -/
structure Source.Twins (s s' : Source) : Prop where
  label : s.label = s'.label
  masked : s.masked = s'.masked
  marked : contains_marker s.inspection = contains_marker s'.inspection

theorem read_ok (hs : Source.read from_str lookup label text = .ok s) :
    inspect lookup text = .ok s.inspection ∧ s.label = label
      ∧ s.masked = from_str s.inspection.masked := by
  unfold Source.read inspect_env at hs
  cases hi : inspect lookup text with
  | error error =>
    rw [hi] at hs
    cases hs
  | ok i =>
    rw [hi] at hs
    cases he : interpolate lookup text with
    | error error =>
      rw [he] at hs
      cases hs
    | ok e =>
      rw [he] at hs
      cases hs
      exact ⟨rfl, rfl, rfl⟩

theorem twins_of_read (hsame : SameOutline text text')
    (hs : Source.read from_str lookup label text = .ok s)
    (hs' : Source.read from_str lookup' label text' = .ok s') : s.Twins s' := by
  obtain ⟨hi, hlabel, hmasked⟩ := read_ok hs
  obtain ⟨hi', hlabel', hmasked'⟩ := read_ok hs'
  obtain ⟨houtline, hprefix⟩ := hsame
  obtain ⟨o, ho, htext⟩ := masked_eq_put hi
  obtain ⟨o', ho', htext'⟩ := masked_eq_put hi'
  obtain rfl : o = o' := Except.ok.inj (ho.symm.trans (houtline.trans ho'))
  refine ⟨hlabel.trans hlabel'.symm, ?_, ?_⟩
  · rw [hmasked, hmasked', htext, htext', hprefix]
  · funext scalar
    rw [Bool.eq_iff_iff, contains_marker_iff hi ho, contains_marker_iff hi' ho', hprefix]

/-- What is tainted stays so on the way down. -/
theorem tainted_of_descend {marked : Str → Bool} {parts : List Str} {d : Descent}
    (h : (parts.foldl (Descent.step marked) d).tainted = false) : d.tainted = false := by
  induction parts generalizing d with
  | nil => exact h
  | cons part parts ih =>
    have hstep := ih h
    unfold Descent.step at hstep
    split at hstep
    · exact hstep
    · exact (Bool.or_eq_false_iff.mp hstep).1
    · exact (Bool.or_eq_false_iff.mp hstep).1

/-- A path that is not tainted leads to one place in twins. -/
theorem Source.Twins.descend (h : s.Twins s') (hs : (s.descend path).tainted = false)
    (hs' : (s'.descend path).tainted = false) : s.descend path = s'.descend path := by
  have hbegin := tainted_of_descend hs
  have hbegin' := tainted_of_descend hs'
  dsimp only at hbegin hbegin'
  rw [Source.descend, Source.descend, hbegin, hbegin', h.masked, h.marked]

/-- What is shown of a setting: that it was not interpolated, and stands in the masked document as
in the expanded one. -/
theorem field_shown {safe : Option Value} (h : (s.field path safe).redacted = false) :
    (s.descend path).tainted = false
      ∧ (s.descend path).node.any (contains_interpolation (contains_marker s.inspection)) = false
      ∧ node_eq (s.descend path).node (s.at path) = true ∧ safe.isNone = false := by
  simp only [Source.field, Bool.or_eq_false_iff, Bool.not_eq_false'] at h
  exact ⟨h.1.1.1, h.1.1.2, h.1.2, h.2⟩

/-- What is made of the expanded document is made of the masked one. -/
theorem project_node {α : Type} {project : Option Yaml → α} (hproject : Unordered project)
    {node node' : Option Yaml} (h : node_eq node node' = true) : project node' = project node := by
  unfold node_eq at h
  split at h
  · rfl
  · exact (hproject _ _ h).symm
  · cases h

/-- A setting that is shown, as its place in the masked document has it. -/
theorem field_eq {project : Option Yaml → Option Value} (hproject : Unordered project)
    (h : (s.field path (project (s.at path))).redacted = false) :
    s.field path (project (s.at path)) = {
      value := (project (s.descend path).node).getD .Null
      origin := if (s.descend path).node.isSome then s.label ++ '.' :: path else "built-in".toList
      redacted := false } := by
  obtain ⟨htainted, hplain, hnode, hsafe⟩ := field_shown h
  have hproj := project_node hproject hnode
  unfold Source.field
  dsimp only
  rw [htainted, hplain, hnode, hsafe, hproj]
  simp only [Bool.not_true, Bool.or_false, Bool.false_eq_true, if_false]

theorem Source.Twins.field_eq (h : s.Twins s') {project : Option Yaml → Option Value}
    (hproject : Unordered project) (hs : (s.field path (project (s.at path))).redacted = false)
    (hs' : (s'.field path (project (s'.at path))).redacted = false) :
    s.field path (project (s.at path)) = s'.field path (project (s'.at path)) := by
  have hdescend := h.descend (field_shown hs).1 (field_shown hs').1
  rw [Vars.field_eq hproject hs, Vars.field_eq hproject hs', hdescend, h.label]

/-- What is made of a place that is shown of twins is one thing. -/
theorem Source.Twins.project_eq (h : s.Twins s') {α : Type} {project : Option Yaml → α}
    (hproject : Unordered project) {safe safe' : Option Value}
    (hs : (s.field path safe).redacted = false) (hs' : (s'.field path safe').redacted = false) :
    project (s.at path) = project (s'.at path) := by
  have hdescend := h.descend (field_shown hs).1 (field_shown hs').1
  rw [project_node hproject (field_shown hs).2.2.1, project_node hproject (field_shown hs').2.2.1,
    hdescend]

/-- Where a policy is found: with the route, before the defaults for all routes. -/
def inherits {α β : Type} (own : Option α) (defaults : Option β) : PolicyOrigin :=
  match own, defaults with
  | some _, _ => .Route
  | none, some _ => .GlobalDefaults
  | none, none => .BuiltIn

/-- The policies of a route in the table are found so. -/
theorem inherits_policies (defaults : RouteDefaults) (input : RouteInput) :
    (resolve_route defaults (RouteConfig.of_input input)).policy_origins = {
      methods := inherits input.methods defaults.methods
      retry := inherits input.retry defaults.retry
      rate_limit := inherits input.rate_limit defaults.rate_limit } := by
  obtain ⟨rate_limit, retry, methods⟩ := defaults
  unfold resolve_route RouteConfig.of_input
  cases input.methods <;> cases input.retry <;> cases input.rate_limit <;>
    cases methods <;> cases retry <;> cases rate_limit <;>
    simp [inherits, apply_ite RouteConfig.policy_origins]

/-- What a configuration makes of a policy where a route has it, and where the defaults do. -/
structure Policy where
  own : Option Yaml → Option Value
  defaults : Option Yaml → Option Value
  built_in : Value

/-- The policy `name` of a route at `path`, as it is shown. -/
def Policy.shown (p : Policy) (s rs : Source) (path name : Str) : Field × PolicyOrigin :=
  let own := p.own (rs.at path)
  let defaults := p.defaults (s.at ("defaults.".toList ++ name))
  policy s rs path name (inherits own defaults) (own.getD (defaults.getD p.built_in))

/-- A policy that is shown: the route is, and it is shown as what it was found to be. -/
theorem policy_shown {rs : Source} {name : Str} {origin : PolicyOrigin} {value : Value}
    (h : (policy s rs path name origin value).1.redacted = false) :
    (rs.field path (some .Null)).redacted = false
      ∧ (policy_field s rs path name origin value).redacted = false
      ∧ policy s rs path name origin value
        = (policy_field s rs path name origin value, origin) := by
  obtain ⟨hguard, hfield⟩ := Bool.or_eq_false_iff.mp h
  refine ⟨hguard, hfield, ?_⟩
  unfold policy
  dsimp only
  rw [hguard, hfield, Bool.or_self, if_neg Bool.false_ne_true, ← hfield]

/-- **No policy that is shown was substituted**, but for one that the defaults have in the one
environment and not in the other: where it is built in, they are not looked at. -/
theorem policy_not_substituted {label' text₁ text₁' name : Str} {rs rs' : Source} {p : Policy}
    (hsame : SameOutline text text') (hsame₁ : SameOutline text₁ text₁')
    (hs : Source.read from_str lookup label text = .ok s)
    (hs' : Source.read from_str lookup' label text' = .ok s')
    (hrs : Source.read from_str lookup label' text₁ = .ok rs)
    (hrs' : Source.read from_str lookup' label' text₁' = .ok rs')
    (hown : Unordered p.own) (hdefaults : Unordered p.defaults)
    (h : (p.shown s rs path name).1.redacted = false)
    (h' : (p.shown s' rs' path name).1.redacted = false) :
    p.shown s rs path name = p.shown s' rs' path name
      ∨ (p.shown s rs path name).2 = .GlobalDefaults ∧ (p.shown s' rs' path name).2 = .BuiltIn
      ∨ (p.shown s rs path name).2 = .BuiltIn ∧ (p.shown s' rs' path name).2 = .GlobalDefaults := by
  have htwins := twins_of_read hsame hs hs'
  have hroutes := twins_of_read hsame₁ hrs hrs'
  unfold Policy.shown at h h' ⊢
  obtain ⟨hguard, hfield, heq⟩ := policy_shown h
  obtain ⟨hguard', hfield', heq'⟩ := policy_shown h'
  have hroute := hroutes.project_eq hown hguard hguard'
  rw [heq, heq']
  dsimp only at hfield hfield' ⊢
  rw [← hroute] at hfield' ⊢
  cases ho : p.own (rs.at path) with
  | some value =>
    -- the route's own: it is shown as a setting of the route
    left
    rw [ho] at hfield hfield'
    have ho' : p.own (rs'.at path) = some value := hroute.symm.trans ho
    have hvalue := @Source.Twins.field_eq path _ _ hroutes _ hown (by rwa [ho]) (by rwa [ho'])
    rw [ho, ho'] at hvalue
    exact congrArg (·, PolicyOrigin.Route) hvalue
  | none =>
    rw [ho] at hfield hfield'
    cases hd : p.defaults (s.at ("defaults.".toList ++ name)) with
    | none =>
      cases hd' : p.defaults (s'.at ("defaults.".toList ++ name)) with
      | none => exact .inl rfl
      | some value' => exact .inr (.inr ⟨rfl, rfl⟩)
    | some value =>
      cases hd' : p.defaults (s'.at ("defaults.".toList ++ name)) with
      | none => exact .inr (.inl ⟨rfl, rfl⟩)
      | some value' =>
        left
        rw [hd] at hfield
        rw [hd'] at hfield'
        have hvalue := @Source.Twins.field_eq ("defaults.".toList ++ name) _ _ htwins _ hdefaults
          (by rwa [hd]) (by rwa [hd'])
        rw [hd, hd'] at hvalue
        exact congrArg (·, PolicyOrigin.GlobalDefaults) hvalue

end

namespace Edge

/-- A document with one variable. -/
def text : Str := "public: GET\nzone: ${ZONE}\n".toList

def environment (zone name : Str) : Option Str :=
  if name = "ZONE".toList then some zone else none

/-- What was read, where it could be. -/
def source (from_str : Str → Option Yaml) (zone text : Str) : Source :=
  match Source.read from_str (environment zone) "CONFIG".toList text with
  | .ok s => s
  | .error _ => ⟨[], ⟨[], []⟩, none, none⟩

theorem read_source {from_str : Str → Option Yaml} {zone text : Str}
    (h : (Source.read from_str (environment zone) "CONFIG".toList text).isOk = true) :
    Source.read from_str (environment zone) "CONFIG".toList text
      = .ok (source from_str zone text) := by
  unfold source
  split
  · assumption
  · rename_i hread
    rw [hread] at h
    cases h

/-- A plain text. -/
def scalar : Option Yaml → Option Value
  | some (.String text) => some (.String text)
  | _ => none

theorem scalar_unordered : Unordered scalar := by
  intro node node' h
  cases node <;> cases node' <;> simp_all [yaml_eq, scalar]

/-- The methods of the routes of a group, which the defaults may have. -/
def methods : Policy := ⟨scalar, fun node => node.map fun _ => .String "GET".toList, .Null⟩

theorem methods_unordered : Unordered methods.defaults := fun _ _ _ => rfl

end Edge

open Edge in
/-- A policy of the routes is shown alike in two zones. -/
theorem policy_not_substituted_edge :
    let s := source Staging.from_str "eu".toList text
    let s' := source Staging.from_str "us".toList text
    let shown := methods.shown s s "public".toList "methods".toList
    let shown' := methods.shown s' s' "public".toList "methods".toList
    shown = shown' ∨ shown.2 = .GlobalDefaults ∧ shown'.2 = .BuiltIn
      ∨ shown.2 = .BuiltIn ∧ shown'.2 = .GlobalDefaults :=
  have hread (zone : Str) (h : (Source.read Staging.from_str (environment zone) "CONFIG".toList
      text).isOk = true) := read_source h
  policy_not_substituted ⟨rfl, rfl⟩ ⟨rfl, rfl⟩ (hread _ (by decide +kernel))
    (hread _ (by decide +kernel)) (hread _ (by decide +kernel)) (hread _ (by decide +kernel))
    scalar_unordered methods_unordered (by decide +kernel) (by decide +kernel)

namespace Edge

/-- Methods for all routes, after a number that a variable supplies. -/
def defaults : Str := "defaults: \x7bretry: \x7battempts: ${ZONE}\x7d, methods: [GET]\x7d".toList

/-- A document of that form, of which the number may make the rest a comment. -/
def defaults_from_str (text : Str) : Option Yaml := do
  let rest ← strip_prefix text "defaults: \x7bretry: \x7battempts: ".toList
  let scalar (text : Str) : Yaml := if text.all Char.isDigit then .Number text else .String text
  let retry (attempts : Str) : Yaml × Yaml :=
    (.String "retry".toList, .Mapping [(.String "attempts".toList, scalar attempts)])
  let fields ← match split_once_at "\x7d\x7d #".toList rest with
    | some (attempts, _) => some [retry attempts]
    | none => (split_once_at "\x7d, methods: [GET]\x7d".toList rest).map fun (attempts, _) =>
      [retry attempts, (.String "methods".toList, .Sequence [.String "GET".toList])]
  return .Mapping [(.String "defaults".toList, .Mapping fields)]

end Edge

open Edge in
/-- The exception does occur: a variable takes the methods away from the defaults, and what is
built in is shown for them. -/
theorem policy_not_substituted_exception :
    let routes := source Staging.from_str "eu".toList text
    let shown (attempts : String) := methods.shown
      (source defaults_from_str attempts.toList defaults) routes "internal".toList "methods".toList
    (shown "2").1.redacted = false ∧ (shown "2").2 = .GlobalDefaults
      ∧ (shown "2\x7d\x7d #").1.redacted = false ∧ (shown "2\x7d\x7d #").2 = .BuiltIn := by
  decide +kernel

end Lagos.Vars
