/-
What the client has to say about its own address (`forwarded_for`, `client_address` and
`forwarded_for_chain` in `headers.rs`).

The trusted proxies append to what the client sent, each its own entry, and the addresses are
counted from the right. So long as the fields can be read, the entries of the proxies are the last
ones whatever stands in front of them (`entries_of_appended`), and nothing depends on the client.
A value with a byte that is no visible ASCII cannot be read, and then the whole chain is given up:
with one such byte a client has the gateway take the last proxy for the caller
(`addresses_agree_iff`).
-/
import Lagos.AdmissionKeys

set_option autoImplicit false

open RustStd

namespace Lagos.Admission

open Lagos.Headers

/-! ## Entries of a list -/

/-- The entries of a field, in `trusted_suffix`. -/
def entries_of (s : Str) : List Str := (split ',' s).map trim

theorem entries_of_append (s t : Str) :
    entries_of (s ++ ',' :: t) = entries_of s ++ entries_of t := by
  rw [entries_of, split, List.splitOn_append_cons_self, List.map_append]
  rfl

theorem entries_of_single {s : Str} (h : ',' ∉ s) : entries_of s = [trim s] := by
  rw [entries_of, split_of_not_mem h, List.map_singleton]

theorem trim_blanks_append {blanks : Str} (h : blanks.all is_whitespace = true) (s : Str) :
    trim (blanks ++ s) = trim s := by
  rw [trim, trim, List.dropWhile_append_of_pos (List.all_eq_true.mp h)]

theorem trim_append_blanks {blanks : Str} (h : blanks.all is_whitespace = true) (s : Str) :
    trim (s ++ blanks) = trim s := by
  have hdrop : ∀ t : Str, (t ++ blanks).rdropWhile is_whitespace = t.rdropWhile is_whitespace := by
    intro t
    rw [List.rdropWhile, List.rdropWhile, List.reverse_append, List.dropWhile_append_of_pos]
    intro c hc
    exact List.all_eq_true.mp h c (List.mem_reverse.mp hc)
  rw [trim, trim, List.dropWhile_append]
  split
  · rename_i hs
    -- Nothing but blanks, on the left or on the right.
    rw [List.isEmpty_iff] at hs
    rw [hs, ← List.append_nil (List.dropWhile is_whitespace blanks),
      List.dropWhile_eq_nil_iff.mpr (List.all_eq_true.mp h)]
    rfl
  · exact hdrop _

/-- Blanks at the end of a field are nothing to its entries. -/
theorem entries_of_blanks {blanks : Str} (h : blanks.all is_whitespace = true) (s : Str) :
    entries_of (s ++ blanks) = entries_of s := by
  have hblanks : ',' ∉ blanks := by
    intro hmem
    have hcomma := List.all_eq_true.mp h ',' hmem
    revert hcomma
    decide
  by_cases hs : ',' ∈ s
  · -- Only the last entry is touched.
    obtain ⟨last, front, hrev, hlast⟩ := List.eq_append_cons_of_mem (List.mem_reverse.mpr hs)
    have hsplit : s = front.reverse ++ ',' :: last.reverse := by
      rw [← List.reverse_reverse s, hrev]
      simp
    have hlast : ',' ∉ last.reverse := fun hmem => hlast (List.mem_reverse.mp hmem)
    have hpadded : ',' ∉ last.reverse ++ blanks := List.not_mem_append hlast hblanks
    rw [hsplit, List.append_assoc, List.cons_append, entries_of_append, entries_of_append,
      entries_of_single hlast, entries_of_single hpadded, trim_append_blanks h]
  · have hpadded : ',' ∉ s ++ blanks := List.not_mem_append hs hblanks
    rw [entries_of_single hs, entries_of_single hpadded, trim_append_blanks h]

theorem entries_of_blank (s : Str) : entries_of (' ' :: s) = entries_of s := by
  rw [entries_of, entries_of, split, split, List.splitOn_cons_eq_if_modifyHead,
    if_neg (by decide)]
  cases hs : s.splitOn ',' with
  | nil => rfl
  | cons piece pieces =>
    rw [List.modifyHead_cons, List.map_cons, List.map_cons, trim_blank]

/-- The entries of fields that are joined are those of the fields. -/
theorem entries_of_intercalate {texts : List Str} (h : texts ≠ []) :
    entries_of (", ".toList.intercalate texts) = texts.flatMap entries_of := by
  induction texts with
  | nil => exact absurd rfl h
  | cons s texts ih =>
    cases texts with
    | nil => simp
    | cons t texts =>
      have hsep : (", ".toList : Str) = [',', ' '] := rfl
      rw [List.intercalate_cons_cons, hsep, List.append_assoc, List.cons_append, List.cons_append,
        List.nil_append, entries_of_append, entries_of_blank, ← hsep,
        ih (List.cons_ne_nil t texts)]
      rfl

/-! ## What the proxies append -/

/-- A byte of the white space around an entry. -/
def is_ows (b : UInt8) : Bool := b == 32 || b == 9

/-- An entry as it is written in a field. -/
def Written (entry : Str) (bytes : List UInt8) : Prop :=
  ∃ front back, front.all is_ows = true ∧ back.all is_ows = true
    ∧ bytes = front ++ utf8_bytes entry ++ back

/-- The fields that arrive when the client sent some, and each proxy appended its entry: as a
field of its own, or inside the last one. -/
inductive Appended (client : List HeaderValue) : List Str → List HeaderValue → Prop where
  | sent : Appended client [] client
  | field {entries : List Str} {fields : List HeaderValue} {entry : Str} {v : HeaderValue}
      (h : Appended client entries fields) (hv : Written entry v.bytes) :
      Appended client (entries ++ [entry]) (fields ++ [v])
  | inside {entries : List Str} {fields : List HeaderValue} {entry : Str} {u v : HeaderValue}
      {pad rest : List UInt8} (h : Appended client entries (fields ++ [u]))
      (hpad : pad.all is_ows = true) (hrest : Written entry rest)
      (hv : v.bytes = u.bytes ++ pad ++ 44 :: rest) :
      Appended client (entries ++ [entry]) (fields ++ [v])

/-- Values that can be read as text. -/
def Readable (fields : List HeaderValue) : Prop :=
  ∀ v ∈ fields, v.bytes.all is_visible_ascii = true

theorem readable_append {fields fields' : List HeaderValue} :
    Readable (fields ++ fields') ↔ Readable fields ∧ Readable fields' := List.forall_mem_append

theorem readable_singleton {v : HeaderValue} :
    Readable [v] ↔ v.bytes.all is_visible_ascii = true := List.forall_mem_singleton

theorem chars_append (a b : List UInt8) : chars (a ++ b) = chars a ++ chars b := List.map_append

theorem ows_blanks {pad : List UInt8} (h : pad.all is_ows = true) :
    pad.all is_visible_ascii = true ∧ (chars pad).all is_whitespace = true := by
  have hbyte : ∀ b : UInt8, is_ows b = true →
      is_visible_ascii b = true ∧ is_whitespace (Char.ofNat b.toNat) = true := by
    intro b hb
    rw [is_ows, Bool.or_eq_true, beq_iff_eq, beq_iff_eq] at hb
    obtain rfl | rfl := hb <;> decide
  rw [List.all_eq_true] at h
  refine ⟨List.all_eq_true.mpr fun b hb => (hbyte b (h b hb)).1, ?_⟩
  rw [chars, List.all_map, List.all_eq_true]
  exact fun b hb => (hbyte b (h b hb)).2

theorem visible_of_addr_char {c : Char} (h : addr_char c = true) : visible c = true := by
  have hkey := key_char_of_addr_char h
  unfold key_char at hkey
  unfold visible
  simp only [Bool.and_eq_true, decide_eq_true_eq, and_assoc] at hkey
  obtain ⟨hlow, hhigh, -⟩ := hkey
  have hle : ' ' ≤ c := Char.le_def.mpr (UInt32.le_iff_toNat_le.mpr (Nat.le_of_lt hlow))
  have hge : c ≤ '~' := Char.le_def.mpr (UInt32.le_iff_toNat_le.mpr hhigh)
  simp [hle, hge]

/-- An address is written in ASCII. -/
theorem addr_bytes {entry : Str} (h : is_ip_addr entry = true) :
    (utf8_bytes entry).all is_visible_ascii = true ∧ chars (utf8_bytes entry) = entry := by
  have hvisible : entry.all visible = true := by
    refine List.all_eq_true.mpr fun c hc => ?_
    exact visible_of_addr_char (List.all_eq_true.mp (all_addr_char h) c hc)
  obtain ⟨v, hv, hread⟩ := from_str_visible hvisible
  unfold HeaderValue.from_str at hv
  split at hv
  · cases hv
    unfold HeaderValue.to_str at hread
    split at hread
    · rename_i hall
      exact ⟨hall, Option.some.inj hread⟩
    · cases hread
  · cases hv

theorem not_blank_of_addr_char {c : Char} (h : addr_char c = true) : ¬ is_whitespace c = true := by
  have hrange := toNat_of_addr_char h
  have hlt : c.toNat < 127 := by omega
  have hchar : c = Char.ofNat c.toNat := (Char.ofNat_toNat c).symm
  clear h
  generalize c.toNat = n at hlt hchar hrange
  subst hchar
  revert hrange
  revert n
  decide +kernel

/-- There is nothing to trim from an address. -/
theorem trim_addr {entry : Str} (h : is_ip_addr entry = true) : trim entry = entry :=
  trim_of_no_blank fun c hc => Bool.eq_false_iff.mpr
    (not_blank_of_addr_char (List.all_eq_true.mp (all_addr_char h) c hc))

/-- What is written for an address reads as the address, with blanks around it. -/
theorem written_readable {entry : Str} {bytes : List UInt8} (h : is_ip_addr entry = true)
    (hw : Written entry bytes) :
    bytes.all is_visible_ascii = true ∧ entries_of (chars bytes) = [entry] := by
  obtain ⟨front, back, hfront, hback, rfl⟩ := hw
  obtain ⟨hvisible, hchars⟩ := addr_bytes h
  obtain ⟨hfront, hblank⟩ := ows_blanks hfront
  obtain ⟨hback, hblank'⟩ := ows_blanks hback
  refine ⟨by rw [List.all_append, List.all_append, hfront, hvisible, hback]; rfl, ?_⟩
  have hcomma : ∀ {blanks : Str}, blanks.all is_whitespace = true → ',' ∉ blanks := by
    intro blanks hblanks hmem
    have hcomma := List.all_eq_true.mp hblanks ',' hmem
    revert hcomma
    decide
  have haddr := List.all_eq_true.mp (all_addr_char h)
  have hentry : ',' ∉ entry := by
    intro hmem
    have hcomma := haddr ',' hmem
    revert hcomma
    decide
  rw [chars_append, chars_append, hchars, entries_of_blanks hblank',
    entries_of_single (List.not_mem_append (hcomma hblank) hentry), trim_blanks_append hblank,
    trim_addr h]

section Appended

variable {client fields : List HeaderValue} {entries : List Str}

/-- What the proxies append can be read if what the client sent can. -/
theorem readable_appended (h : Appended client entries fields)
    (hvalid : ∀ e ∈ entries, is_ip_addr e = true) : Readable fields ↔ Readable client := by
  induction h with
  | sent => rfl
  | field h hv ih =>
    obtain ⟨hentries, hentry⟩ := List.forall_mem_append.mp hvalid
    have hread := (written_readable (hentry _ (List.mem_singleton_self _)) hv).1
    rw [readable_append, readable_singleton, and_iff_left hread, ih hentries]
  | inside h hpad hrest hv ih =>
    obtain ⟨hentries, hentry⟩ := List.forall_mem_append.mp hvalid
    have hread := (written_readable (hentry _ (List.mem_singleton_self _)) hrest).1
    rw [← ih hentries, readable_append, readable_append, readable_singleton, readable_singleton, hv,
      List.all_append, List.all_append, List.all_cons, (ows_blanks hpad).1, hread]
    simp [is_visible_ascii]

/-- The entries of all fields. -/
def listed (fields : List HeaderValue) : List Str :=
  fields.flatMap fun v => entries_of (chars v.bytes)

theorem listed_append (fields fields' : List HeaderValue) :
    listed (fields ++ fields') = listed fields ++ listed fields' := List.flatMap_append

theorem listed_singleton (v : HeaderValue) : listed [v] = entries_of (chars v.bytes) :=
  List.flatMap_singleton _ _

/-- **The entries of the proxies are the last ones**, after whatever the client listed. -/
theorem entries_of_appended (h : Appended client entries fields)
    (hvalid : ∀ e ∈ entries, is_ip_addr e = true) : listed fields = listed client ++ entries := by
  induction h with
  | sent => rw [List.append_nil]
  | field h hv ih =>
    obtain ⟨hentries, hentry⟩ := List.forall_mem_append.mp hvalid
    rw [listed_append, ih hentries, listed_singleton,
      (written_readable (hentry _ (List.mem_singleton_self _)) hv).2, List.append_assoc]
  | inside h hpad hrest hv ih =>
    obtain ⟨hentries, hentry⟩ := List.forall_mem_append.mp hvalid
    have hcomma : ∀ bytes : List UInt8, chars (44 :: bytes) = ',' :: chars bytes := fun _ => rfl
    -- The entry comes after a comma, so the field before it keeps its entries.
    rw [← List.append_assoc, ← ih hentries, listed_append, listed_append, listed_singleton,
      listed_singleton, hv, chars_append, chars_append, hcomma, entries_of_append,
      entries_of_blanks (ows_blanks hpad).2,
      (written_readable (hentry _ (List.mem_singleton_self _)) hrest).2, List.append_assoc]

theorem appended_ne_nil (h : Appended client entries fields) (hne : entries ≠ []) :
    fields ≠ [] := by
  cases h with
  | sent => exact absurd rfl hne
  | field h hv => exact List.concat_ne_nil _ _
  | inside h hpad hrest hv => exact List.concat_ne_nil _ _

end Appended

/-! ## The addresses -/

/-- What the gateway believes of the caller's address: what it forwards, and what it counts by. -/
def addresses (headers : HeaderMap) (peer : Option Str) (trusted_proxies : ℕ) :
    (Option Str × Option Str) × Option Str :=
  (forwarded_for is_ip_addr headers peer trusted_proxies,
    client_address (forwarded_for_chain headers) peer trusted_proxies)

section Addresses

variable {headers : HeaderMap} {peer : Str}

theorem mapM_to_str {fields : List HeaderValue} (h : Readable fields) :
    fields.mapM HeaderValue.to_str = some (fields.map fun v => chars v.bytes) := by
  induction fields with
  | nil => rfl
  | cons v fields ih =>
    obtain ⟨hv, hfields⟩ := List.forall_mem_cons.mp h
    have hread : v.to_str = some (chars v.bytes) := if_pos hv
    rw [List.mapM_cons, hread, ih hfields]
    rfl

/-- One value that cannot be read is enough. -/
theorem mapM_to_str_none {fields : List HeaderValue} (h : ¬ Readable fields) :
    fields.mapM HeaderValue.to_str = none := by
  induction fields with
  | nil => exact absurd (List.forall_mem_nil _) h
  | cons v fields ih =>
    rw [List.mapM_cons]
    by_cases hv : v.bytes.all is_visible_ascii = true
    · have hfields : ¬ Readable fields := fun hf => h (List.forall_mem_cons.mpr ⟨hv, hf⟩)
      have hread : v.to_str = some (chars v.bytes) := if_pos hv
      rw [hread, ih hfields]
      rfl
    · have hread : v.to_str = none := if_neg hv
      rw [hread]
      rfl

/-- Fields that can be read are one list of entries. -/
theorem chain_of_readable {fields : List HeaderValue}
    (hfields : headers.get_all X_FORWARDED_FOR = fields)
    (hne : fields ≠ []) (h : Readable fields) :
    ∃ chain, forwarded_for_chain headers = some chain
      ∧ (split ',' chain).map trim = listed fields := by
  have hmap : fields.map (fun v => chars v.bytes) ≠ [] := by simpa using hne
  refine ⟨", ".toList.intercalate (fields.map fun v => chars v.bytes), ?_, ?_⟩
  · rw [forwarded_for_chain, hfields, mapM_to_str h]
    exact if_neg (by simpa using hmap)
  · refine (entries_of_intercalate hmap).trans ?_
    rw [List.flatMap_map]
    rfl

theorem chain_of_unreadable (h : ¬ Readable (headers.get_all X_FORWARDED_FOR)) :
    forwarded_for_chain headers = none := by
  rw [forwarded_for_chain, mapM_to_str_none h]

/-- The proxies' entries and the socket, or the socket alone. -/
theorem suffix_of_appended {client : List HeaderValue} {entries : List Str} (hne : entries ≠ [])
    (hvalid : ∀ e ∈ entries, is_ip_addr e = true)
    (h : Appended client entries (headers.get_all X_FORWARDED_FOR)) [Decidable (Readable client)] :
    trusted_suffix is_ip_addr (forwarded_for_chain headers) (some peer) entries.length
      = if Readable client then entries ++ [peer] else [peer] := by
  have hpos : entries.length ≠ 0 := fun h0 => hne (List.length_eq_zero_iff.mp h0)
  by_cases hread : Readable client
  · rw [if_pos hread]
    obtain ⟨chain, hchain, hentries⟩ := chain_of_readable rfl (appended_ne_nil h hne)
      ((readable_appended h hvalid).mpr hread)
    rw [entries_of_appended h hvalid] at hentries
    rw [hchain, trusted_suffix]
    dsimp only
    have hlong : ¬ (entries.length = 0 ∨ (listed client ++ entries).length < entries.length) := by
      rw [List.length_append]
      omega
    have hdrop : (listed client ++ entries).length - entries.length = (listed client).length := by
      rw [List.length_append, Nat.add_sub_cancel]
    rw [hentries, if_neg hlong, hdrop, List.drop_left, if_pos (List.all_eq_true.mpr hvalid)]
  · rw [if_neg hread, chain_of_unreadable fun hall => hread ((readable_appended h hvalid).mp hall)]
    exact if_pos (.inr (Nat.pos_of_ne_zero hpos))

/-- The addresses are what the trusted suffix comes to. -/
theorem addresses_of_suffix {suffix : List Str} {trusted_proxies : ℕ} (hpos : 0 < trusted_proxies)
    (hne : suffix ≠ [])
    (h : trusted_suffix is_ip_addr (forwarded_for_chain headers) (some peer) trusted_proxies
      = suffix) :
    addresses headers (some peer) trusted_proxies
      = ((some (", ".toList.intercalate suffix), suffix.head?), suffix.head?) := by
  have hnonempty : ¬ suffix.isEmpty = true := by simpa using hne
  rw [addresses, forwarded_for, client_address, if_pos hpos, h, if_neg hnonempty]

theorem length_le_intercalate (entries : List Str) :
    peer.length ≤ (", ".toList.intercalate (entries ++ [peer])).length := by
  induction entries with
  | nil => simp
  | cons e entries ih =>
    rw [List.cons_append, List.intercalate_cons_of_ne_nil (List.concat_ne_nil _ _),
      List.length_append]
    exact Nat.le_add_left_of_le ih

/-- A list that ends with the socket and has more is not written like the socket alone. -/
theorem intercalate_ne {entries : List Str} (hne : entries ≠ []) :
    ", ".toList.intercalate (entries ++ [peer]) ≠ ", ".toList.intercalate [peer] := by
  obtain ⟨first, rest, rfl⟩ := List.exists_cons_of_ne_nil hne
  intro h
  have hlength := congrArg List.length h
  have hlast := @length_le_intercalate peer rest
  rw [List.cons_append, List.intercalate_cons_of_ne_nil (List.concat_ne_nil _ _),
    List.intercalate_singleton, List.length_append, List.length_append] at hlength
  have hsep : (", ".toList : Str).length = 2 := rfl
  omega

end Addresses

/-- **The client has no say in its address just as far as its fields can be read.** Of two requests
on which the trusted proxies appended the same entries, the forwarded chain, `X-Real-IP` and the
client address are the same, whatever the two clients sent before, if the fields of both can be
read or of neither; and otherwise they are not. -/
theorem addresses_agree_iff {client client' : List HeaderValue} {entries : List Str}
    {headers headers' : HeaderMap} (hne : entries ≠ [])
    (hvalid : ∀ e ∈ entries, is_ip_addr e = true)
    (h : Appended client entries (headers.get_all X_FORWARDED_FOR))
    (h' : Appended client' entries (headers'.get_all X_FORWARDED_FOR)) (peer : Option Str) :
    addresses headers peer entries.length = addresses headers' peer entries.length
      ↔ peer = none ∨ (Readable client ↔ Readable client') := by
  classical
  cases peer with
  | none =>
    -- Nothing is believed of a caller without a socket.
    refine iff_of_true ?_ (.inl rfl)
    rw [addresses, addresses, forwarded_for, forwarded_for]
    rfl
  | some peer =>
    rw [or_iff_right (Option.some_ne_none peer)]
    have hpos : 0 < entries.length := List.length_pos_of_ne_nil hne
    have hsuffix : ∀ p : Prop, [Decidable p] → (if p then entries ++ [peer] else [peer]) ≠ [] := by
      intro p _
      split <;> simp
    rw [addresses_of_suffix hpos (hsuffix _) (suffix_of_appended hne hvalid h),
      addresses_of_suffix hpos (hsuffix _) (suffix_of_appended hne hvalid h')]
    constructor
    · intro hsame
      have hjoined := Option.some.inj (congrArg (fun a => a.1.1) hsame)
      by_cases hread : Readable client <;> by_cases hread' : Readable client'
      · exact iff_of_true hread hread'
      · rw [if_pos hread, if_neg hread'] at hjoined
        exact absurd hjoined (intercalate_ne hne)
      · rw [if_neg hread, if_pos hread'] at hjoined
        exact absurd hjoined.symm (intercalate_ne hne)
      · exact iff_of_false hread hread'
    · intro hboth
      by_cases hread : Readable client
      · rw [if_pos hread, if_pos (hboth.mp hread)]
      · rw [if_neg hread, if_neg fun hread' => hread (hboth.mpr hread')]

/-! ## A gateway behind one proxy -/

namespace OneProxy

/-- The entry of the proxy. -/
def ENTRY : Str := "203.0.113.7".toList

def PEER : Str := "10.1.2.3".toList

/-- The entry as a field of its own. -/
def own_field : HeaderValue := ⟨utf8_bytes ENTRY, by decide +kernel⟩

/-- A forged address, and the field that it becomes. -/
def forged : HeaderValue := ⟨utf8_bytes "9.9.9.9".toList, by decide +kernel⟩

def forged_field : HeaderValue :=
  ⟨utf8_bytes "9.9.9.9".toList ++ [] ++ 44 :: ([32] ++ utf8_bytes ENTRY ++ []), by decide +kernel⟩

/-- A byte that may be sent and cannot be read, and the field that it becomes. -/
def unread_byte : HeaderValue := ⟨[0xff], by decide⟩

def unread_field : HeaderValue :=
  ⟨[0xff] ++ [] ++ 44 :: ([32] ++ utf8_bytes ENTRY ++ []), by decide +kernel⟩

/-- The headers with one such field. -/
def with_field (v : HeaderValue) : HeaderMap := ⟨[(X_FORWARDED_FOR, v)]⟩

theorem appended_alone : Appended [] [ENTRY] [own_field] :=
  @Appended.field _ [] [] ENTRY own_field .sent ⟨[], [], rfl, rfl, (List.append_nil _).symm⟩

theorem appended_inside {u v : HeaderValue}
    (hv : v.bytes = u.bytes ++ [] ++ 44 :: ([32] ++ utf8_bytes ENTRY ++ [])) :
    Appended [u] [ENTRY] [v] :=
  @Appended.inside _ [] [] ENTRY u v [] _ .sent rfl ⟨[32], [], rfl, rfl, rfl⟩ hv

end OneProxy

open OneProxy in
/-- A forged address in front changes nothing. -/
theorem addresses_agree_forged :
    addresses (with_field forged_field) (some PEER) 1 = addresses (with_field own_field) (some PEER) 1
      ↔ some PEER = none ∨ (Readable [forged] ↔ Readable []) :=
  @addresses_agree_iff [forged] [] [ENTRY] (with_field forged_field) (with_field own_field)
    (List.cons_ne_nil _ _) (by decide +kernel) (appended_inside rfl) appended_alone (some PEER)

open OneProxy in
/-- A byte that cannot be read in front hides the caller behind the proxy's own address. -/
theorem unread_byte_hides_caller :
    Appended [unread_byte] [ENTRY] ((with_field unread_field).get_all X_FORWARDED_FOR)
      ∧ Appended [] [ENTRY] ((with_field own_field).get_all X_FORWARDED_FOR)
      ∧ addresses (with_field unread_field) (some PEER) 1 = ((some PEER, some PEER), some PEER)
      ∧ addresses (with_field own_field) (some PEER) 1
        = ((some "203.0.113.7, 10.1.2.3".toList, some ENTRY), some ENTRY) :=
  ⟨appended_inside rfl, appended_alone, by decide +kernel, by decide +kernel⟩

end Lagos.Admission
