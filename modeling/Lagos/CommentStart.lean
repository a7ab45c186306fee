/-
Where `comment_start` finds a comment (`config/interpolate.rs`).

It takes every apostrophe and quotation mark for one that opens or closes a quoted scalar, where
YAML does so only at the beginning of one: in a plain scalar such as `it's` they are characters.
So it finds the comment of an entry if the quotes before it pair up (`comment_start_eq_iff`), as
they do wherever no plain scalar has a quote in it (`YamlLine.Entry.paired`). `process` asks for
the comment where it takes no block scalar to be open, and a comment that is found has no part in
the expansion (`comment_kept_iff`).
-/
import Lagos.ExpansionLines
import Lagos.Lib.YamlLine

set_option autoImplicit false

open RustStd YamlLine

namespace Lagos.Interpolate

/-! ## The scan -/

/-- Outside of quotes. -/
def Quotes.outside (prev_was_space : Bool) : Quotes := { prev_was_space := prev_was_space }

/-- Inside of single quotes, -/
def Quotes.single (prev_was_space : Bool) : Quotes :=
  { in_single := true, prev_was_space := prev_was_space }

/-- and of double quotes. -/
def Quotes.double (prev_was_space escaped : Bool) : Quotes :=
  { in_double := true, prev_was_space := prev_was_space, escaped := escaped }

section Steps

variable {b : Bool} {c : Char} {s : Str}

/-- A character that is put in front of the code of a line. -/
def with_code (c : Char) (rest : Str × Str) : Str × Str := (c :: rest.1, rest.2)

theorem outside_hash : comment_start (.outside true) ('#' :: s) = ([], '#' :: s) := rfl

theorem outside_char (hsingle : c ≠ '\'') (hdouble : c ≠ '"') (hhash : c = '#' → b = false) :
    comment_start (.outside b) (c :: s) = with_code c (comment_start (.outside (white c)) s) := by
  rw [comment_start]
  by_cases hc : c = '#'
  · rw [hhash hc]
    simp [Quotes.outside, hc, with_code, white]
  · simp [Quotes.outside, hc, hsingle, hdouble, with_code, white]

theorem outside_single :
    comment_start (.outside b) ('\'' :: s) = with_code '\'' (comment_start (.single false) s) := by
  rw [comment_start]
  rfl

theorem outside_double :
    comment_start (.outside b) ('"' :: s)
      = with_code '"' (comment_start (.double false false) s) := by
  rw [comment_start]
  rfl

theorem single_close :
    comment_start (.single b) ('\'' :: s) = with_code '\'' (comment_start (.outside false) s) := by
  rw [comment_start]
  rfl

theorem single_char (hc : c ≠ '\'') :
    comment_start (.single b) (c :: s) = with_code c (comment_start (.single (white c)) s) := by
  rw [comment_start]
  simp [Quotes.single, hc, with_code, white]

theorem double_close :
    comment_start (.double b false) ('"' :: s)
      = with_code '"' (comment_start (.outside false) s) := by
  rw [comment_start]
  rfl

theorem double_char (hquote : c ≠ '"') (hescape : c ≠ '\\') :
    comment_start (.double b false) (c :: s)
      = with_code c (comment_start (.double (white c) false) s) := by
  rw [comment_start]
  simp [Quotes.double, hquote, beq_false_of_ne hescape, with_code, white]

theorem double_escape :
    comment_start (.double b false) ('\\' :: c :: s)
      = with_code '\\' (with_code c (comment_start (.double false false) s)) := by
  rw [comment_start, comment_start]
  rfl

/-- The inside of double quotes is passed over, up to the quote that closes them, -/
theorem double_body {body : Str} (h : DoubleBody body) (rest : Str) :
    comment_start (.double b false) (body ++ '"' :: rest)
      = (body ++ '"' :: (comment_start (.outside false) rest).1,
          (comment_start (.outside false) rest).2) := by
  induction h generalizing b with
  | nil => exact double_close
  | char hquote hescape _ ih =>
    rw [List.cons_append, double_char hquote hescape, ih]
    rfl
  | escape c _ ih =>
    rw [List.cons_append, List.cons_append, double_escape, ih]
    rfl

/-- and so is that of single quotes. -/
theorem single_body {body : Str} (h : '\'' ∉ body) (rest : Str) :
    comment_start (.single b) (body ++ '\'' :: rest)
      = (body ++ '\'' :: (comment_start (.outside false) rest).1,
          (comment_start (.outside false) rest).2) := by
  induction body generalizing b with
  | nil => exact single_close
  | cons c body ih =>
    obtain ⟨hc, hbody⟩ := not_or.mp (List.mem_cons.not.mp h)
    rw [List.cons_append, single_char (Ne.symm hc), ih hbody]
    rfl

/-- **Text in which quotes pair up is all passed over.** -/
theorem comment_start_paired {code : Str} (h : Paired b code) (rest : Str) :
    comment_start (.outside b) (code ++ rest)
      = (code ++ (comment_start (.outside (after b code)) rest).1,
          (comment_start (.outside (after b code)) rest).2) := by
  induction h with
  | nil b => rfl
  | char hsingle hdouble hhash _ ih =>
    rw [List.cons_append, outside_char hsingle hdouble hhash, ih, after_cons]
    rfl
  | @single b body s hbody _ ih =>
    rw [List.cons_append, List.append_assoc, List.cons_append, outside_single,
      single_body hbody, ih, after_quoted rfl]
    simp [with_code]
  | @double b body s hbody _ ih =>
    rw [List.cons_append, List.append_assoc, List.cons_append, outside_double,
      double_body hbody, ih, after_quoted rfl]
    simp [with_code]

/-! ## Where the comment is found -/

/-- The comment that is found is the one after some code. -/
def Found (q : Quotes) (code words : Str) : Prop :=
  comment_start q (code ++ '#' :: words) = (code, '#' :: words)

theorem found_with_code {q q' : Quotes} {code words : Str}
    (h : comment_start q (c :: (code ++ '#' :: words))
      = with_code c (comment_start q' (code ++ '#' :: words)))
    (hfound : Found q (c :: code) words) : Found q' code words := by
  unfold Found at *
  rw [List.cons_append, h] at hfound
  obtain ⟨h₁, h₂⟩ := Prod.mk.inj hfound
  exact Prod.ext (List.cons.inj h₁).2 h₂

/-- Single quotes are closed before it, -/
theorem closed_single {code words : Str} (h : Found (.single b) code words) :
    ∃ body rest, '\'' ∉ body ∧ code = body ++ '\'' :: rest ∧ Found (.outside false) rest words := by
  induction code generalizing b with
  | nil =>
    -- Inside of quotes, the `#` would be a character of the code.
    unfold Found at h
    rw [List.nil_append, single_char (by decide)] at h
    cases (Prod.mk.inj h).1
  | cons c code ih =>
    by_cases hc : c = '\''
    · subst hc
      exact ⟨[], code, List.not_mem_nil, rfl, found_with_code single_close h⟩
    · obtain ⟨body, rest, hbody, rfl, hrest⟩ := ih (found_with_code (single_char hc) h)
      refine ⟨c :: body, rest, ?_, rfl, hrest⟩
      rw [List.mem_cons, not_or]
      exact ⟨Ne.symm hc, hbody⟩

/-- and so are double quotes. -/
theorem closed_double {code words : Str} (h : Found (.double b false) code words) :
    ∃ body rest, DoubleBody body ∧ code = body ++ '"' :: rest
      ∧ Found (.outside false) rest words := by
  induction hn : code.length using Nat.strong_induction_on generalizing code b with
  | _ n ih =>
    subst hn
    cases code with
    | nil =>
      unfold Found at h
      rw [List.nil_append, double_char (by decide) (by decide)] at h
      cases (Prod.mk.inj h).1
    | cons c code =>
      by_cases hquote : c = '"'
      · subst hquote
        exact ⟨[], code, .nil, rfl, found_with_code double_close h⟩
      · by_cases hescape : c = '\\'
        · subst hescape
          cases code with
          | nil =>
            unfold Found at h
            rw [List.cons_append, List.nil_append, double_escape] at h
            cases (Prod.mk.inj h).1
          | cons d code =>
            have hrest : Found (.double false false) code words := by
              unfold Found at *
              rw [List.cons_append, List.cons_append, double_escape] at h
              obtain ⟨h₁, h₂⟩ := Prod.mk.inj h
              exact Prod.ext (List.cons.inj (List.cons.inj h₁).2).2 h₂
            obtain ⟨body, rest, hbody, rfl, hfound⟩ := ih code.length
              (by simp only [List.length_cons]; omega) hrest rfl
            exact ⟨_, rest, .escape d hbody, rfl, hfound⟩
        · obtain ⟨body, rest, hbody, rfl, hfound⟩ :=
            ih code.length (by simp) (found_with_code (double_char hquote hescape) h) rfl
          exact ⟨_, rest, .char hquote hescape hbody, rfl, hfound⟩

/-- **The comment is found only if the quotes before it pair up.** -/
theorem paired_of_found {code words : Str} (h : Found (.outside b) code words) :
    Paired b code := by
  induction hn : code.length using Nat.strong_induction_on generalizing code b with
  | _ n ih =>
    subst hn
    cases code with
    | nil => exact .nil b
    | cons c code =>
      by_cases hsingle : c = '\''
      · subst hsingle
        obtain ⟨body, rest, hbody, rfl, hfound⟩ :=
          closed_single (found_with_code outside_single h)
        exact .single hbody (ih rest.length (by simp; omega) hfound rfl)
      · by_cases hdouble : c = '"'
        · subst hdouble
          obtain ⟨body, rest, hbody, rfl, hfound⟩ :=
            closed_double (found_with_code outside_double h)
          exact .double hbody (ih rest.length (by simp; omega) hfound rfl)
        · have hhash : c = '#' → b = false := by
            -- Behind a blank it would be the one that is found.
            rintro rfl
            by_contra hb
            rw [Bool.not_eq_false] at hb
            unfold Found at h
            rw [hb, List.cons_append, outside_hash] at h
            cases (Prod.mk.inj h).1
          refine .char hsingle hdouble hhash (ih code.length (by simp) ?_ rfl)
          exact found_with_code (outside_char hsingle hdouble hhash) h

/-- What comment of a line is found. -/
theorem comment_start_eq_iff {code words : Str} (hafter : after true code = true) :
    comment_start {} (code ++ '#' :: words) = (code, '#' :: words) ↔ Paired true code := by
  constructor
  · exact fun h => paired_of_found h
  · intro h
    refine (comment_start_paired h _).trans ?_
    rw [hafter, outside_hash, List.append_nil]

end Steps

/-! ## A document without the comment -/

section Behind

variable {lookup : Str → Option Str} {fallback : Option (Str → Str)} {line : ℕ} {e : Expansion}

/-- An expansion that comes after some text. -/
def Expansion.behind (front : Str) (e : Expansion) : Expansion := { e with text := front ++ e.text }

theorem behind_push (front added : Str) :
    { e.behind front with text := (e.behind front).text ++ added }
      = Expansion.behind front { e with text := e.text ++ added } := by
  simp [Expansion.behind]

theorem substituted_behind (front name : Str) (default : Option Str) :
    substituted lookup fallback line name default (e.behind front)
      = (substituted lookup fallback line name default e).map fun r => (r.1, r.2.behind front) := by
  unfold substituted
  cases resolved lookup name with
  | some v => rfl
  | none =>
    cases default with
    | some d => rfl
    | none =>
      cases fallback with
      | some f => rfl
      | none => rfl

theorem expand_reference_behind (front body : Str) :
    expand_reference lookup fallback line body (e.behind front)
      = (expand_reference lookup fallback line body e).map (Expansion.behind front) := by
  unfold expand_reference
  dsimp only
  split
  · rfl
  · split
    · rfl
    · have hbehind : { e.behind front with
          referenced := note (e.behind front).referenced (reference body).1 }
          = Expansion.behind front
              { e with referenced := note e.referenced (reference body).1 } := rfl
      rw [hbehind, substituted_behind]
      cases substituted lookup fallback line (reference body).1 (reference body).2
          { e with referenced := note e.referenced (reference body).1 } with
      | error error => rfl
      | ok r =>
        dsimp only [Except.map, bind, Except.bind]
        rw [behind_push]
        split
        · rfl
        · rfl

/-- What was written before has no part in the expansion of a line, -/
theorem expand_into_behind (front : Str) {scan : Scan} {code : Str} :
    expand_into lookup fallback line scan code (e.behind front)
      = (expand_into lookup fallback line scan code e).map (Expansion.behind front) := by
  induction code generalizing scan e with
  | nil =>
    cases scan with
    | text => rfl
    | dollar =>
      rw [expand_into, expand_into, behind_push]
      rfl
    | body read => rfl
  | cons c code ih =>
    cases scan with
    | text =>
      rw [expand_into, expand_into, behind_push]
      split
      · exact ih
      · exact ih
    | dollar =>
      rw [expand_into, expand_into, behind_push, behind_push]
      split
      · exact ih
      · split
        · exact ih
        · exact ih
    | body read =>
      rw [expand_into, expand_into, expand_reference_behind]
      split
      · cases expand_reference lookup fallback line read e with
        | error error => rfl
        | ok e₁ => exact ih
      · exact ih

/-- nor in that of the lines that follow. -/
theorem process_lines_behind (front : Str) {line_no : ℕ} {block : Option ℕ} {lines : List Str} :
    process_lines lookup fallback line_no block lines (e.behind front)
      = (process_lines lookup fallback line_no block lines e).map (Expansion.behind front) := by
  induction lines generalizing line_no block e with
  | nil => rfl
  | cons raw lines ih =>
    rw [process_lines, process_lines]
    dsimp only
    rw [expand_into_behind]
    cases expand_into lookup fallback line_no .text
        (code_and_comment (block_at block raw) raw).1 e with
    | error error => rfl
    | ok e₁ =>
      dsimp only [Except.map]
      rw [List.append_assoc, behind_push, ih, ← List.append_assoc]
      rfl

/-- One line, and the rest of them. -/
theorem process_lines_cons {line_no : ℕ} {block : Option ℕ} {raw : Str} {lines : List Str} :
    process_lines lookup fallback line_no block (raw :: lines) e
      = match expand_into lookup fallback line_no .text
          (code_and_comment (block_at block raw) raw).1 e with
        | .error error => .error error
        | .ok e₁ => process_lines lookup fallback (line_no + 1) (next_block block raw) lines
            { e₁ with text := e₁.text ++ (code_and_comment (block_at block raw) raw).2
                ++ if lines.isEmpty then [] else ['\n'] } := rfl

/-- After a line there is nothing, or a line break. -/
theorem head_of_process_lines {line_no : ℕ} {block : Option ℕ} {lines : List Str} {e' : Expansion}
    (h : process_lines lookup fallback line_no block lines
      { e with text := if lines.isEmpty then [] else ['\n'] } = .ok e') :
    ∀ c ∈ e'.text.head?, c = '\n' := by
  cases lines with
  | nil =>
    cases h
    intro c hc
    cases hc
  | cons raw lines =>
    have hbehind : { e with text := ['\n'] }
        = Expansion.behind ['\n'] { e with text := [] } := rfl
    dsimp only [List.isEmpty_cons] at h
    rw [if_neg Bool.false_ne_true, hbehind, process_lines_behind] at h
    cases hrest : process_lines lookup fallback line_no block (raw :: lines)
        { e with text := [] } with
    | error error =>
      rw [hrest] at h
      cases h
    | ok e₁ =>
      rw [hrest] at h
      cases h
      intro c hc
      exact (Option.some.inj hc).symm

end Behind

/-- Two results that differ by a comment only, which is at the end of a line with `n` lines before
it. -/
def Apart (n : ℕ) (comment : Str) :
    Except InterpolateError Expansion → Except InterpolateError Expansion → Prop
  | .ok e, .ok e' => ∃ front back, e = { e' with text := front ++ comment ++ back }
      ∧ e'.text = front ++ back ∧ front.count '\n' = n ∧ ∀ c ∈ back.head?, c = '\n'
  | .error error, .error error' => error = error'
  | _, _ => False

section Apart

variable {lookup : Str → Option Str} {fallback : Option (Str → Str)}

/-- Lines are read the same with and without a comment: where they are indented to, and where a
block scalar is opened. -/
structure SameCode (line code comment : Str) : Prop where
  line_eq : line = code ++ comment
  found : comment_start {} line = (code, comment)
  alone : comment_start {} code = (code, [])
  blank : (trim line).isEmpty = (trim code).isEmpty
  indent : indent_of line = indent_of code

theorem SameCode.block_at_eq {line code comment : Str} (h : SameCode line code comment)
    (block : Option ℕ) : block_at block code = block_at block line := by
  unfold block_at
  rw [h.blank, h.indent]

theorem SameCode.next_block_eq {line code comment : Str} (h : SameCode line code comment)
    {block : Option ℕ} (hblock : block_at block line = none) :
    next_block block code = next_block block line := by
  unfold next_block
  rw [h.block_at_eq, hblock, h.indent]
  simp [code_and_comment, h.found, h.alone]

/-- **A comment has no part in the expansion**: it is put back where it was. -/
theorem process_lines_apart {line code comment : Str} (h : SameCode line code comment)
    {before after : List Str} {block : Option ℕ} (hbefore : ∀ raw ∈ before, '\n' ∉ raw)
    (hcode : '\n' ∉ code)
    (hblock : block_at (before.foldl next_block block) line = none)
    {line_no : ℕ} {e : Expansion} :
    Apart (e.text.count '\n' + before.length) comment
      (process_lines lookup fallback line_no block (before ++ line :: after) e)
      (process_lines lookup fallback line_no block (before ++ code :: after) e) := by
  induction before generalizing line_no block e with
  | nil =>
    rw [List.foldl_nil] at hblock
    have hline : code_and_comment (block_at block line) line = (code, comment) := by
      rw [hblock]
      exact h.found
    have halone : code_and_comment (block_at block code) code = (code, []) := by
      rw [h.block_at_eq, hblock]
      exact h.alone
    rw [List.nil_append, List.nil_append, process_lines_cons, process_lines_cons, hline, halone,
      h.next_block_eq hblock]
    cases hcode' : expand_into lookup fallback line_no .text code e with
    | error error => rfl
    | ok e₁ =>
      obtain ⟨added, htext, hadded⟩ := expand_into_ok hcode hcode'
      -- What follows is the same, after the comment and without it.
      generalize hbreak : (if after.isEmpty then [] else ['\n'] : Str) = ending
      have hwith : { e₁ with text := e₁.text ++ comment ++ ending }
          = Expansion.behind (e₁.text ++ comment) { e₁ with text := ending } := rfl
      have hwithout : { e₁ with text := e₁.text ++ [] ++ ending }
          = Expansion.behind e₁.text { e₁ with text := ending } := by
        rw [List.append_nil]
        rfl
      dsimp only
      rw [hwith, hwithout, process_lines_behind, process_lines_behind]
      cases hrest : process_lines lookup fallback (line_no + 1) (next_block block line)
          after { e₁ with text := ending } with
      | error error => rfl
      | ok e₂ =>
        rw [← hbreak] at hrest
        refine ⟨e₁.text, e₂.text, rfl, rfl, ?_, head_of_process_lines hrest⟩
        rw [htext, List.count_append, List.count_eq_zero.mpr hadded]
        rfl
  | cons raw before ih =>
    obtain ⟨hraw, hbefore⟩ := List.forall_mem_cons.mp hbefore
    rw [List.cons_append, List.cons_append, process_lines_cons, process_lines_cons]
    have hparts := code_and_comment_append (block_at block raw) raw
    rw [← hparts, List.mem_append, not_or] at hraw
    cases hexpand : expand_into lookup fallback line_no .text
        (code_and_comment (block_at block raw) raw).1 e with
    | error error => rfl
    | ok e₁ =>
      obtain ⟨added, htext, hadded⟩ := expand_into_ok hraw.1 hexpand
      -- A line before adds one line break, its own.
      have hcount : (e₁.text ++ (code_and_comment (block_at block raw) raw).2
          ++ ['\n']).count '\n' = e.text.count '\n' + 1 := by
        rw [htext, List.count_append, List.count_append, List.count_append,
          List.count_eq_zero.mpr hadded, List.count_eq_zero.mpr hraw.2]
        rfl
      have hmore : ∀ s : Str, (before ++ s :: after).isEmpty = false := by simp
      dsimp only
      rw [hmore, hmore, List.length_cons, Nat.add_comm before.length 1, ← Nat.add_assoc, ← hcount]
      exact ih hbefore hblock

/-! ## Entries -/

/-- What a line is indented to is decided by its first character that is not white, -/
theorem indent_of_append {s t : Str} (h : ':' ∈ s) : indent_of (s ++ t) = indent_of s := by
  unfold indent_of
  rw [List.takeWhile_append, if_neg]
  intro hlength
  have hall := List.takeWhile_eq_self_iff.mp
    ((List.takeWhile_prefix is_whitespace (l := s)).eq_of_length hlength)
  exact absurd (hall _ h) (by decide)

/-- and where there is one, it is not blank. -/
theorem trim_isEmpty {s : Str} (h : ':' ∈ s) : (trim s).isEmpty = false := by
  rw [← Bool.not_eq_true, List.isEmpty_iff, trim_eq_nil_iff]
  intro hall
  exact absurd (hall _ h) (by decide)

theorem colon_mem_code (l : Entry) : ':' ∈ l.code := by
  simp [Entry.code]

/-- An entry is read the same without its comment. -/
theorem sameCode (l : Entry) (h : Paired true l.code) : SameCode l.line l.code l.comment where
  line_eq := rfl
  found := (comment_start_eq_iff l.after_code).mpr h
  alone := (congrArg (comment_start {}) (List.append_nil l.code).symm).trans
    ((comment_start_paired h []).trans (by rw [comment_start, List.append_nil]))
  blank := by
    rw [trim_isEmpty (colon_mem_code l), Entry.line,
      trim_isEmpty (List.mem_append_left _ (colon_mem_code l))]
  indent := indent_of_append (colon_mem_code l)

/-- How a line that comes after some others is parted. -/
def parted (before : List Str) (line : Str) : Str × Str :=
  code_and_comment (block_at (before.foldl next_block none) line) line

theorem parted_eq_iff (before : List Str) (l : Entry) :
    parted before l.line = (l.code, l.comment)
      ↔ Paired true l.code ∧ block_at (before.foldl next_block none) l.line = none := by
  unfold parted code_and_comment
  cases block_at (before.foldl next_block none) l.line with
  | none =>
    rw [Option.isSome_none, if_neg Bool.false_ne_true, and_iff_left rfl]
    exact comment_start_eq_iff l.after_code
  | some indent =>
    -- In a block scalar, everything is code.
    refine iff_of_false (fun h => ?_) (fun h => nomatch h.2)
    cases (Prod.mk.inj h).2

end Apart

/-- **When a comment is told from the code**: where the quotes of an entry pair up, and no block
scalar is taken to be open. Then the document is expanded as it is without the comment. -/
theorem comment_kept_iff (lookup : Str → Option Str) (fallback : Option (Str → Str)) (text : Str)
    (before after : List Str) (l : Entry) (htext : split '\n' text = before ++ l.line :: after) :
    ((comment_start {} l.line = (l.code, l.comment) ∧ parted before l.line = (l.code, l.comment))
        ↔ Paired true l.code ∧ block_at (before.foldl next_block none) l.line = none)
      ∧ (parted before l.line = (l.code, l.comment) →
        Apart before.length l.comment (process lookup fallback text)
          (process lookup fallback (join '\n' (before ++ l.code :: after)))) := by
  have hbreak : ∀ raw ∈ before ++ l.line :: after, '\n' ∉ raw := by
    rw [← htext]
    exact fun raw hraw => Segments.not_mem_of_mem_splitOn hraw
  rw [parted_eq_iff]
  constructor
  · exact and_iff_right_of_imp fun h => (comment_start_eq_iff l.after_code).mpr h.1
  · rintro ⟨hpaired, hblock⟩
    have hbefore : ∀ raw ∈ before, '\n' ∉ raw :=
      fun raw hraw => hbreak raw (List.mem_append_left _ hraw)
    have hcode : '\n' ∉ l.code := by
      intro hmem
      exact hbreak l.line (by simp) (List.mem_append_left _ hmem)
    have hlines : split '\n' (join '\n' (before ++ l.code :: after))
        = before ++ l.code :: after := by
      refine split_join ?_ (by simp)
      intro raw hraw
      obtain hraw | hraw := List.mem_append.mp hraw
      · exact hbefore raw hraw
      · obtain rfl | hraw := List.mem_cons.mp hraw
        · exact hcode
        · exact hbreak raw (by simp [hraw])
    rw [process_eq, process_eq, interpolate_with_fallback, interpolate_with_fallback, htext, hlines]
    simpa using process_lines_apart (sameCode l hpaired) hbefore hcode hblock (e := {})

/-- A line that nothing is wrong with. -/
theorem plain_comment_kept :
    split '\n' "port: 80 # ${PORT}".toList = [] ++ "port: 80 # ${PORT}".toList :: []
      ∧ ∃ l : Entry, l.line = "port: 80 # ${PORT}".toList
        ∧ parted [] l.line = (l.code, l.comment) := by
  have htext : split '\n' "port: 80 # ${PORT}".toList
      = [] ++ "port: 80 # ${PORT}".toList :: [] := by decide +kernel
  let l := Entry.of_words [] "port".toList "80".toList " ${PORT}".toList (List.forall_mem_nil _)
    (plain_of_word (by decide +kernel) (by decide +kernel))
    (plain_of_word (by decide +kernel) (by decide +kernel))
  have hline : l.line = "port: 80 # ${PORT}".toList := by decide +kernel
  have hkept := (comment_kept_iff (fun _ => none) none _ [] [] l (hline ▸ htext)).1.mpr
    ⟨l.paired (fun _ => by decide) (fun _ => by decide), rfl⟩
  exact ⟨htext, l, hline, hkept.2⟩

/-- An apostrophe in a word hides the comment after it, and so does a block scalar that is the
first entry of an item: the entries beside it are deeper than the line it is opened on. -/
theorem comment_expanded :
    (∃ l : Entry, l.line = "greeting: it's # ${NAME}".toList
      ∧ comment_start {} l.line = (l.line, [])
      ∧ process (fun _ => none) none l.line = .error (.Unset "NAME".toList 1))
    ∧ ∃ l : Entry, l.line = "  name: x # ${NAME}".toList
      ∧ process (fun _ => none) none ("- run: |\n    text\n".toList ++ l.line)
        = .error (.Unset "NAME".toList 3) := by
  constructor
  · refine ⟨Entry.of_words [] "greeting".toList "it's".toList " ${NAME}".toList
      (List.forall_mem_nil _) (plain_of_word (by decide +kernel) (by decide +kernel))
      (plain_of_word (by decide +kernel) (by decide +kernel)), ?_, ?_, ?_⟩
    · decide +kernel
    · decide +kernel
    · decide +kernel
  · refine ⟨Entry.of_words "  ".toList "name".toList "x".toList " ${NAME}".toList
      (List.all_eq_true.mp (by decide)) (plain_of_word (by decide +kernel) (by decide +kernel))
      (plain_of_word (by decide +kernel) (by decide +kernel)), ?_, ?_⟩
    · decide +kernel
    · decide +kernel

end Lagos.Interpolate
