/-
One line of YAML: scalars, and where a comment opens.

A plain scalar is what YAML 1.2 lets stand on one line outside a flow collection: a `:` in it comes
before, and a `#` after, a character that is no blank, and quotes in it are characters like any
others. A quoted scalar ends at the quote that closes it. So in a mapping entry that a comment
follows, the comment is what comes after the blanks behind the value (`Entry`).

`Paired` is what a reader sees who takes every quote for one that opens or closes something. It is
the same for quoted scalars (`paired_single`, `paired_double`) and for scalars without quotes
(`paired_plain`).
-/
import Mathlib.Data.List.Chain
import Mathlib.Tactic.Common

set_option autoImplicit false

namespace YamlLine

/-! ## Scalars -/

/-- `s-white`. -/
def white (c : Char) : Bool := c == ' ' || c == '\t'

/-- `ns-char`, as far as it matters where a scalar ends. -/
def ns_char (c : Char) : Bool := !(white c || c == '\n' || c == '\r')

/-- `c-indicator`. -/
def indicators : List Char :=
  ['-', '?', ':', ',', '[', ']', '{', '}', '#', '&', '*', '!', '|', '>', '\'', '"', '%', '@',
    Char.ofNat 0x60]

/-- Indicators that a plain scalar may begin with, if no blank follows. -/
def firsts : List Char := ['-', '?', ':']

/-- A plain scalar on one line. -/
structure Plain (s : List Char) : Prop where
  ne_nil : s ≠ []
  first : ∀ c rest, s = c :: rest → ns_char c = true
    ∧ (c ∈ indicators → c ∈ firsts ∧ ∃ d ∈ rest.head?, ns_char d = true)
  line : ∀ c ∈ s, ns_char c = true ∨ white c = true
  /-- A `:` is followed, and a `#` preceded, by a character that is no blank. -/
  inner : s.IsChain fun a b => (a = ':' → ns_char b = true) ∧ (b = '#' → ns_char a = true)
  last : ∀ c ∈ s.getLast?, ns_char c = true ∧ c ≠ ':'

/-- What stands in a single-quoted scalar: an apostrophe is written twice. -/
inductive SingleBody : List Char → Prop
  | nil : SingleBody []
  | char {c : Char} {s : List Char} (hc : c ≠ '\'') (h : SingleBody s) : SingleBody (c :: s)
  | quote {s : List Char} (h : SingleBody s) : SingleBody ('\'' :: '\'' :: s)

/-- What stands in a double-quoted scalar: a backslash takes the next character with it. -/
inductive DoubleBody : List Char → Prop
  | nil : DoubleBody []
  | char {c : Char} {s : List Char} (hquote : c ≠ '"') (hescape : c ≠ '\\') (h : DoubleBody s) :
      DoubleBody (c :: s)
  | escape (c : Char) {s : List Char} (h : DoubleBody s) : DoubleBody ('\\' :: c :: s)

/-- A scalar that is complete on its line. -/
inductive Scalar : List Char → Prop
  | plain {s : List Char} (h : Plain s) : Scalar s
  | single {body : List Char} (h : SingleBody body) : Scalar ('\'' :: (body ++ ['\'']))
  | double {body : List Char} (h : DoubleBody body) : Scalar ('"' :: (body ++ ['"']))

/-! ## Entries -/

/-- `key: value # comment`. -/
structure Entry where
  indent : List Char
  key : List Char
  gap : List Char
  value : List Char
  blanks : List Char
  words : List Char
  indented : ∀ c ∈ indent, white c = true
  key_scalar : Scalar key
  gap_white : gap ≠ [] ∧ ∀ c ∈ gap, white c = true
  value_scalar : Scalar value
  blanks_white : blanks ≠ [] ∧ ∀ c ∈ blanks, white c = true

/-- What comes before the comment, -/
def Entry.code (e : Entry) : List Char :=
  e.indent ++ (e.key ++ ':' :: (e.gap ++ (e.value ++ e.blanks)))

/-- the comment, -/
def Entry.comment (e : Entry) : List Char := '#' :: e.words

/-- and the line. -/
def Entry.line (e : Entry) : List Char := e.code ++ e.comment

/-- A word is a plain scalar, wherever there are quotes in it. -/
theorem plain_of_word {c : Char} {s : List Char} (hfirst : c ∉ indicators)
    (hword : (c :: s).all (fun d => ns_char d && d != ':') = true) : Plain (c :: s) := by
  have hmem : ∀ d ∈ c :: s, ns_char d = true ∧ d ≠ ':' := by
    simpa only [List.all_eq_true, Bool.and_eq_true, bne_iff_ne] using hword
  exact {
    ne_nil := List.cons_ne_nil c s
    first := by
      intro d rest h
      cases h
      exact ⟨(hmem c List.mem_cons_self).1, fun hd => absurd hd hfirst⟩
    line := fun d hd => Or.inl (hmem d hd).1
    inner := by
      refine List.Pairwise.isChain (List.pairwise_of_forall_mem_list fun a ha b hb => ?_)
      exact ⟨fun hcolon => absurd hcolon (hmem a ha).2, fun _ => (hmem a ha).1⟩
    last := fun d hd => hmem d (List.mem_of_getLast? hd) }

/-- An entry of plain scalars, one blank apart. -/
def Entry.of_words (indent key value words : List Char) (hindent : ∀ c ∈ indent, white c = true)
    (hkey : Plain key) (hvalue : Plain value) : Entry where
  indent := indent
  key := key
  gap := [' ']
  value := value
  blanks := [' ']
  words := words
  indented := hindent
  key_scalar := .plain hkey
  gap_white := ⟨List.cons_ne_nil _ _, List.forall_mem_singleton.mpr rfl⟩
  value_scalar := .plain hvalue
  blanks_white := ⟨List.cons_ne_nil _ _, List.forall_mem_singleton.mpr rfl⟩

/-! ## Quotes that are taken to pair up -/

/-- Text in which every apostrophe goes with the next one, and every quotation mark with the next
that no backslash takes with it; and a `#` outside of what they enclose follows no blank. The first
argument says whether a blank, or nothing, comes before. -/
inductive Paired : Bool → List Char → Prop
  | nil (b : Bool) : Paired b []
  | char {b : Bool} {c : Char} {s : List Char} (hsingle : c ≠ '\'') (hdouble : c ≠ '"')
      (hhash : c = '#' → b = false) (h : Paired (white c) s) : Paired b (c :: s)
  | single {b : Bool} {body s : List Char} (hbody : '\'' ∉ body) (h : Paired false s) :
      Paired b ('\'' :: (body ++ '\'' :: s))
  | double {b : Bool} {body s : List Char} (hbody : DoubleBody body) (h : Paired false s) :
      Paired b ('"' :: (body ++ '"' :: s))

/-- Whether a blank, or nothing, comes after some text. -/
def after (b : Bool) (s : List Char) : Bool := (s.getLast?.map white).getD b

@[simp] theorem after_nil (b : Bool) : after b [] = b := rfl

theorem after_append {b : Bool} {s t : List Char} : after b (s ++ t) = after (after b s) t := by
  unfold after
  rw [List.getLast?_append]
  cases t.getLast? with
  | none => rfl
  | some c => rfl

theorem after_cons {b : Bool} {c : Char} {s : List Char} :
    after b (c :: s) = after (white c) s := after_append (s := [c])

/-- What comes after a closing quote comes after no blank. -/
theorem after_quoted {b : Bool} {q : Char} {body s : List Char} (hq : white q = false) :
    after b (q :: (body ++ q :: s)) = after false s := by
  rw [after_cons, after_append, after_cons, hq]

theorem after_of_ne_nil {b b' : Bool} {s : List Char} (h : s ≠ []) : after b s = after b' s := by
  unfold after
  obtain ⟨c, hc⟩ := Option.isSome_iff_exists.mp (List.getLast?_isSome.mpr h)
  rw [hc]
  rfl

namespace Paired

theorem append {b : Bool} {s t : List Char} (h : Paired b s) (h' : Paired (after b s) t) :
    Paired b (s ++ t) := by
  induction h with
  | nil b => exact h'
  | char hsingle hdouble hhash _ ih => exact .char hsingle hdouble hhash (ih (after_cons ▸ h'))
  | @single b body s hbody _ ih =>
    rw [after_quoted rfl] at h'
    rw [List.cons_append, List.append_assoc, List.cons_append]
    exact .single hbody (ih h')
  | @double b body s hbody _ ih =>
    rw [after_quoted rfl] at h'
    rw [List.cons_append, List.append_assoc, List.cons_append]
    exact .double hbody (ih h')

/-- Blanks are nothing to it. -/
theorem of_white {s : List Char} (h : ∀ c ∈ s, white c = true) (b : Bool) : Paired b s := by
  induction s generalizing b with
  | nil => exact .nil b
  | cons c s ih =>
    obtain ⟨hc, hs⟩ := List.forall_mem_cons.mp h
    have hne : ∀ d, white d = false → c ≠ d := by
      rintro d hd rfl
      rw [hc] at hd
      cases hd
    exact .char (hne _ rfl) (hne _ rfl) (fun hhash => absurd hhash (hne _ rfl)) (ih hs _)

end Paired

/-- A text without quotes, after which no `#` follows a blank. -/
theorem paired_of_no_quotes {s : List Char} {b : Bool} (hsingle : '\'' ∉ s) (hdouble : '"' ∉ s)
    (hfirst : s.head? = some '#' → b = false)
    (hinner : s.IsChain fun a c => c = '#' → white a = false) : Paired b s := by
  induction s generalizing b with
  | nil => exact .nil b
  | cons c s ih =>
    rw [List.mem_cons, not_or] at hsingle hdouble
    obtain ⟨hnext, hinner⟩ := List.isChain_cons.mp hinner
    refine .char (Ne.symm hsingle.1) (Ne.symm hdouble.1) (fun hc => hfirst (by rw [hc]; rfl)) ?_
    exact ih hsingle.2 hdouble.2 (fun hhead => hnext _ hhead rfl) hinner

theorem white_of_ns {c : Char} (h : ns_char c = true) : white c = false := by
  unfold ns_char at h
  cases hc : white c with
  | false => rfl
  | true => simp [hc] at h

/-- **A plain scalar without quotes**, wherever it stands. -/
theorem paired_plain {s : List Char} (h : Plain s) (hsingle : '\'' ∉ s) (hdouble : '"' ∉ s)
    (b : Bool) : Paired b s := by
  refine paired_of_no_quotes hsingle hdouble ?_ ?_
  · intro hhead
    obtain ⟨c, rest, rfl⟩ := List.exists_cons_of_ne_nil h.ne_nil
    obtain rfl := Option.some.inj hhead
    -- A `#` is an indicator, and no plain scalar begins with it.
    exact absurd ((h.first _ _ rfl).2 (by decide)).1 (by decide)
  · exact h.inner.imp fun a c hac hhash => white_of_ns (hac.2 hhash)

/-- **A single-quoted scalar**: an apostrophe that is written twice closes and opens again. -/
theorem paired_single {body : List Char} (h : SingleBody body) (b : Bool) :
    Paired b ('\'' :: (body ++ ['\''])) := by
  -- The first apostrophe closes what comes before it; what follows pairs up in any state.
  have hcut : ∀ {body : List Char}, SingleBody body → ∃ front rest, '\'' ∉ front ∧
      body ++ ['\''] = front ++ '\'' :: rest ∧ ∀ b, Paired b rest := by
    intro body h
    induction h with
    | nil => exact ⟨[], [], List.not_mem_nil, rfl, .nil⟩
    | @char c s hc _ ih =>
      obtain ⟨front, rest, hfront, heq, hrest⟩ := ih
      refine ⟨c :: front, rest, ?_, by rw [List.cons_append, heq, List.cons_append], hrest⟩
      rw [List.mem_cons, not_or]
      exact ⟨Ne.symm hc, hfront⟩
    | @quote s _ ih =>
      obtain ⟨front, rest, hfront, heq, hrest⟩ := ih
      refine ⟨[], '\'' :: (s ++ ['\'']), List.not_mem_nil, rfl, fun b => ?_⟩
      rw [heq]
      exact .single hfront (hrest false)
  obtain ⟨front, rest, hfront, heq, hrest⟩ := hcut h
  rw [heq]
  exact .single hfront (hrest false)

/-- **A double-quoted scalar.** -/
theorem paired_double {body : List Char} (h : DoubleBody body) (b : Bool) :
    Paired b ('"' :: (body ++ ['"'])) := .double h (.nil false)

/-- A scalar that is quoted, or without quotes. -/
theorem Scalar.paired {s : List Char} (h : Scalar s) (hplain : Plain s → '\'' ∉ s ∧ '"' ∉ s)
    (b : Bool) : Paired b s := by
  cases h with
  | plain h => exact paired_plain h (hplain h).1 (hplain h).2 b
  | single h => exact paired_single h b
  | double h => exact paired_double h b

/-- **Quotes in plain scalars are the only exception**: where neither the key nor the value is a
plain scalar with a quote in it, the quotes of a line pair up. -/
theorem Entry.paired (e : Entry) (hkey : Plain e.key → '\'' ∉ e.key ∧ '"' ∉ e.key)
    (hvalue : Plain e.value → '\'' ∉ e.value ∧ '"' ∉ e.value) : Paired true e.code := by
  refine .append (.of_white e.indented true) (.append (e.key_scalar.paired hkey _) ?_)
  refine .char (by decide) (by decide) (fun h => absurd h (by decide)) ?_
  exact .append (.of_white e.gap_white.2 _)
    (.append (e.value_scalar.paired hvalue _) (.of_white e.blanks_white.2 _))

/-- A comment comes after a blank. -/
theorem Entry.after_code (e : Entry) : after true e.code = true := by
  have hblanks : after true e.blanks = true := by
    obtain ⟨c, hc⟩ := Option.isSome_iff_exists.mp (List.getLast?_isSome.mpr e.blanks_white.1)
    rw [after, hc, Option.map_some, Option.getD_some]
    exact e.blanks_white.2 c (List.mem_of_getLast? hc)
  rw [Entry.code, after_append, after_append, after_cons, after_append, after_append,
    after_of_ne_nil e.blanks_white.1, hblanks]

end YamlLine
