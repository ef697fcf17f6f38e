/-
  Foundation/JsonText.lean --- what is written of a flat object is read back.

  A string is written with one escape or one character for each of its characters, and
  the reader takes one step for each (`readString_escaped`).  An object whose members are
  all strings is written with its names sorted; the reader finds the members in that
  order (`parse_render_strings`), and a Go map read from them holds what was written
  (`intoStringMap_renderStrings`).
-/
import Kaalm.Foundation.GoJson
import Kaalm.Foundation.GoMap

namespace Kaalm.Foundation.Json

/-! ## Strings -/

theorem hexDigit?_hexChar : ∀ n < 16, hexDigit? (hexChar n) = some n := by decide

theorem readHex4_hexChars {n : Nat} (h : n < 65536) (rest : List Char) :
    readHex4 (hexChar (n / 4096) :: hexChar (n / 256 % 16) :: hexChar (n / 16 % 16) ::
      hexChar (n % 16) :: rest) = some (n, rest) := by
  simp only [readHex4, hexDigit?_hexChar (n / 4096) (by omega),
    hexDigit?_hexChar (n / 256 % 16) (by omega), hexDigit?_hexChar (n / 16 % 16) (by omega),
    hexDigit?_hexChar (n % 16) (by omega), bind, Option.bind, pure]
  congr 2
  omega

theorem readUnicode_hexChars {c : Char} (h : c.toNat < 0xd800) (rest : List Char) :
    readUnicode (hexChar (c.toNat / 4096) :: hexChar (c.toNat / 256 % 16) ::
      hexChar (c.toNat / 16 % 16) :: hexChar (c.toNat % 16) :: rest) = some (c, rest) := by
  have hlow : ¬(0xd800 ≤ c.toNat ∧ c.toNat < 0xdc00) := by omega
  have hhigh : ¬(0xdc00 ≤ c.toNat ∧ c.toNat < 0xe000) := by omega
  simp only [readUnicode, readHex4_hexChars (show c.toNat < 65536 by omega), bind, Option.bind,
    hlow, hhigh, if_false, pure, Char.ofNat_toNat]

theorem readString_escape {fuel : Nat} {acc rest rest' : List Char} {c : Char}
    (h : readEscape rest = some (c, rest')) :
    readString (fuel + 1) acc ('\\' :: rest) = readString fuel (c :: acc) rest' := by
  rw [readString, if_neg (by decide), if_pos rfl, h]

theorem readString_escapeChar (c : Char) (fuel : Nat) (acc rest : List Char) :
    readString (fuel + 1) acc (escapeChar c ++ rest) = readString fuel (c :: acc) rest := by
  unfold escapeChar
  split_ifs with hquote hslash hn hr ht hb hf hu
  · subst hquote; rfl
  · subst hslash; rfl
  · subst hn; rfl
  · subst hr; rfl
  · subst ht; rfl
  · have hc : c = Char.ofNat 8 := by rw [← hb, Char.ofNat_toNat]
    subst hc; rfl
  · have hc : c = Char.ofNat 12 := by rw [← hf, Char.ofNat_toNat]
    subst hc; rfl
  · have hlow : c.toNat < 0xd800 := by
      rcases hu with h | rfl | rfl | rfl | h | h
      · omega
      · decide
      · decide
      · decide
      · omega
      · omega
    exact readString_escape (readUnicode_hexChars hlow rest)
  · rw [List.singleton_append, readString, if_neg hquote, if_neg hslash,
      if_neg fun hlt => hu (.inl hlt)]

/-- A string is read back, whatever follows its closing quote. -/
theorem readString_escaped (s : List Char) :
    ∀ (acc rest : List Char) (fuel : Nat), s.length < fuel →
      readString fuel acc (s.flatMap escapeChar ++ '"' :: rest) =
        some (String.ofList (acc.reverse ++ s), rest) := by
  induction s with
  | nil =>
    intro acc rest fuel hfuel
    obtain ⟨fuel, rfl⟩ := Nat.exists_eq_add_one_of_ne_zero (Nat.ne_of_gt hfuel)
    rw [List.flatMap_nil, List.nil_append, readString, if_pos rfl, List.append_nil]
  | cons c s ih =>
    intro acc rest fuel hfuel
    obtain ⟨fuel, rfl⟩ := Nat.exists_eq_add_one_of_ne_zero (Nat.ne_of_gt (Nat.zero_lt_of_lt hfuel))
    rw [List.length_cons] at hfuel
    rw [List.flatMap_cons, List.append_assoc, readString_escapeChar, ih _ _ _ (by omega),
      List.reverse_cons, List.append_assoc, List.singleton_append]

theorem length_le_flatMap_escapeChar (s : List Char) :
    s.length ≤ (s.flatMap escapeChar).length := by
  induction s with
  | nil => exact le_rfl
  | cons c s ih =>
    have hpos : 1 ≤ (escapeChar c).length := by
      unfold escapeChar
      split_ifs <;> exact Nat.succ_pos _
    rw [List.flatMap_cons, List.length_append, List.length_cons]
    omega

/-- The characters of a string in quotes, and what follows. -/
def quotedText (s : String) (rest : List Char) : List Char :=
  '"' :: (s.toList.flatMap escapeChar ++ '"' :: rest)

variable (s : String) (rest : List Char) (depth : Nat) (es : List (String × String))

theorem readString_quotedText :
    readString ((s.toList.flatMap escapeChar ++ '"' :: rest).length + 1) []
      (s.toList.flatMap escapeChar ++ '"' :: rest) = some (s, rest) := by
  have hlen := length_le_flatMap_escapeChar s.toList
  rw [readString_escaped s.toList [] rest _ (by rw [List.length_append]; omega)]
  simp

theorem skipSpace_of_not_space {c : Char} (cs : List Char) (h : isSpace c = false) :
    skipSpace (c :: cs) = c :: cs := by
  rw [skipSpace, List.dropWhile_cons_of_neg (by simp [h])]

theorem readValue_quotedText (fuel depth : Nat) :
    readValue (fuel + 1) depth (quotedText s rest) = some (.str s, rest) := by
  unfold readValue quotedText
  show (readString _ [] _).map (fun x => (Json.str x.1, x.2)) = _
  rw [readString_quotedText]
  rfl

/-! ## Members -/

def membersText : List (String × String) → List Char → List Char
  | [], rest => rest
  | [(k, v)], rest => quotedText k (':' :: quotedText v ('}' :: rest))
  | (k, v) :: e :: es, rest =>
    quotedText k (':' :: quotedText v (',' :: membersText (e :: es) rest))

theorem readMembers_comma (fuel depth : Nat) (k v : String) (rest : List Char) :
    readMembers (fuel + 2) depth (quotedText k (':' :: quotedText v (',' :: rest))) =
      (readMembers (fuel + 1) depth rest).map fun x => ((k, .str v) :: x.1, x.2) := by
  rw [readMembers, quotedText, skipSpace_of_not_space _ (by decide)]
  simp only [readString_quotedText, skipSpace_of_not_space _ (show isSpace ':' = false by decide),
    readValue_quotedText, skipSpace_of_not_space _ (show isSpace ',' = false by decide)]

theorem readMembers_brace (fuel depth : Nat) (k v : String) (rest : List Char) :
    readMembers (fuel + 2) depth (quotedText k (':' :: quotedText v ('}' :: rest))) =
      some ([(k, .str v)], rest) := by
  rw [readMembers, quotedText, skipSpace_of_not_space _ (by decide)]
  simp only [readString_quotedText, skipSpace_of_not_space _ (show isSpace ':' = false by decide),
    readValue_quotedText, skipSpace_of_not_space _ (show isSpace '}' = false by decide)]

theorem readMembers_membersText (rest : List Char) (es : List (String × String)) (fuel : Nat)
    (hne : es ≠ []) (hfuel : es.length < fuel) :
    readMembers fuel depth (membersText es rest) =
      some (es.map fun e => (e.1, .str e.2), rest) := by
  induction es generalizing fuel with
  | nil => exact absurd rfl hne
  | cons e es ih =>
    obtain ⟨k, v⟩ := e
    rw [List.length_cons] at hfuel
    obtain ⟨fuel, rfl⟩ : ∃ n, fuel = n + 2 := ⟨fuel - 2, by omega⟩
    cases es with
    | nil => exact readMembers_brace fuel depth k v rest
    | cons e' es =>
      rw [membersText, readMembers_comma, ih (fuel + 1) (by simp) (by omega)]
      rfl

theorem length_le_membersText :
    es.length ≤ (membersText es rest).length := by
  induction es with
  | nil => exact Nat.zero_le _
  | cons e es ih =>
    obtain ⟨k, v⟩ := e
    cases es with
    | nil => exact Nat.succ_pos _
    | cons e' es =>
      simp only [membersText, quotedText, List.length_cons, List.length_append] at ih ⊢
      omega

/-! ## Flat objects -/

def stringMembers (es : List (String × String)) : List (String × Json) :=
  es.map fun e => (e.1, .str e.2)

def sortedStrings (es sorted : List (String × String)) : List (String × String) :=
  es.foldl (fun l e => insertMember e.1 e.2 l) sorted

theorem insertMember_map (f : String → String) (k v : String) (l : List (String × String)) :
    insertMember k (f v) (l.map fun e => (e.1, f e.2)) =
      (insertMember k v l).map fun e => (e.1, f e.2) := by
  induction l with
  | nil => rfl
  | cons e l ih =>
    obtain ⟨k', v'⟩ := e
    simp only [List.map_cons, insertMember]
    split_ifs
    · rfl
    · rfl
    · rw [ih, List.map_cons]

theorem renderMembers_stringMembers (sorted : List (String × String)) :
    renderMembers (stringMembers es) (sorted.map fun e => (e.1, renderString e.2)) =
      (sortedStrings es sorted).map fun e => (e.1, renderString e.2) := by
  induction es generalizing sorted with
  | nil => rfl
  | cons e es ih =>
    obtain ⟨k, v⟩ := e
    show renderMembers (stringMembers es)
      (insertMember k (render (.str v)) (sorted.map fun e => (e.1, renderString e.2))) = _
    rw [render, insertMember_map, ih]
    rfl

theorem toList_renderString :
    (renderString s).toList ++ rest = quotedText s rest := by
  simp [renderString, quotedText, String.toList_append]

theorem intercalate_membersText (es : List (String × String)) (hne : es ≠ []) :
    [','].intercalate (es.map fun e =>
      (renderString e.1).toList ++ ':' :: (renderString e.2).toList) ++ '\x7d' :: rest =
      membersText es rest := by
  induction es with
  | nil => exact absurd rfl hne
  | cons e es ih =>
    obtain ⟨k, v⟩ := e
    cases es with
    | nil =>
      simp only [List.map_cons, List.map_nil, List.intercalate_singleton, membersText,
        ← toList_renderString, List.append_assoc, List.cons_append]
    | cons e' es =>
      rw [membersText, ← ih (by simp)]
      simp only [List.map_cons, List.intercalate_cons_cons, ← toList_renderString,
        List.append_assoc, List.cons_append, List.nil_append]

theorem toList_render_strings :
    (render (.obj (stringMembers es))).toList =
      '\x7b' :: if sortedStrings es [] = [] then ['\x7d']
        else membersText (sortedStrings es []) [] := by
  have hmembers := renderMembers_stringMembers es []
  rw [List.map_nil] at hmembers
  rw [render, hmembers]
  split_ifs with hempty
  · rw [hempty]
    rfl
  · rw [← intercalate_membersText [] _ hempty]
    simp [String.toList_append, String.toList_intercalate, Function.comp_def]

theorem membersText_eq_cons {es : List (String × String)} (hne : es ≠ []) :
    ∃ tail, membersText es rest = '"' :: tail := by
  match es, hne with
  | [(k, v)], _ => exact ⟨_, rfl⟩
  | (k, v) :: e :: es, _ => exact ⟨_, rfl⟩

theorem readValue_membersText {es : List (String × String)} (hne : es ≠ []) {fuel depth : Nat}
    (hfuel : es.length < fuel) :
    readValue (fuel + 1) (depth + 1) ('\x7b' :: membersText es rest) =
      some (.obj (stringMembers es), rest) := by
  have hmembers := readMembers_membersText depth rest es fuel hne hfuel
  obtain ⟨tail, htail⟩ := membersText_eq_cons rest hne
  rw [htail] at hmembers ⊢
  show (readMembers fuel depth ('"' :: tail)).map _ = _
  rw [hmembers]
  rfl

/-- A flat object is read back with its members in the order they were written in. -/
theorem parse_render_strings :
    parse (render (.obj (stringMembers es))) =
      some (.obj (stringMembers (sortedStrings es []))) := by
  unfold parse
  rw [toList_render_strings]
  split_ifs with hempty
  · rw [hempty]
    rfl
  · have hlen := length_le_membersText [] (sortedStrings es [])
    have hfuel : (sortedStrings es []).length <
        2 * ('\x7b' :: membersText (sortedStrings es []) []).length + 1 := by
      rw [List.length_cons]
      omega
    have hread : readValue (2 * ('\x7b' :: membersText (sortedStrings es []) []).length + 2)
        maxNestingDepth _ = _ := @readValue_membersText [] _ hempty _ 9999 hfuel
    simp only [hread]
    rfl

/-! ## Maps of strings -/

section

variable {es : List (String × String)} {k : String}

theorem insertMember_perm (v : String) {l : List (String × String)} (h : k ∉ l.map Prod.fst) :
    (insertMember k v l).Perm ((k, v) :: l) := by
  induction l with
  | nil => exact .refl _
  | cons e l ih =>
    obtain ⟨k', v'⟩ := e
    rw [List.map_cons, List.mem_cons, not_or] at h
    rw [insertMember, if_neg h.1]
    split_ifs
    · exact .refl _
    · exact ((ih h.2).cons _).trans (.swap _ _ _)

theorem sortedStrings_perm : ∀ sorted : List (String × String),
    ((es ++ sorted).map Prod.fst).Nodup → (sortedStrings es sorted).Perm (es ++ sorted) := by
  induction es with
  | nil => exact fun _ _ => .refl _
  | cons e es ih =>
    intro sorted hnodup
    obtain ⟨k, v⟩ := e
    rw [List.cons_append, List.map_cons, List.nodup_cons, List.map_append, List.mem_append,
      not_or] at hnodup
    have hinsert := insertMember_perm v hnodup.1.2
    have hmove : (es ++ insertMember k v sorted).Perm ((k, v) :: (es ++ sorted)) :=
      (hinsert.append_left es).trans List.perm_middle
    refine (ih _ ?_).trans hmove
    rw [(hmove.map Prod.fst).nodup_iff, List.map_cons, List.nodup_cons, List.map_append,
      List.mem_append, not_or]
    exact hnodup

/-- One member into a `map[string]string`; null leaves the zero value. -/
def intoStringEntry (m : GoMap String String) (e : String × Json) : Option (GoMap String String) :=
  match e.2 with
  | .str v => some (m.insert e.1 v)
  | .null => some (m.insert e.1 "")
  | _ => none

/-- Into a nil `map[string]string`. -/
def intoStringMap : Json → Option (GoMap String String)
  | .null => some ∅
  | .obj members => members.foldlM intoStringEntry ∅
  | _ => none

theorem foldlM_intoStringEntry : ∀ m : GoMap String String,
    (stringMembers es).foldlM intoStringEntry m =
      some (es.foldl (fun m e => m.insert e.1 e.2) m) := by
  induction es with
  | nil => exact fun _ => rfl
  | cons e es ih => exact fun m => ih (m.insert e.1 e.2)

/-- `json.Marshal` of a `map[string]string`. -/
def renderStrings (m : GoMap String String) : String :=
  render (.obj (stringMembers (m.entries.map fun e => (e.1, e.2))))

theorem intoStringMap_renderStrings (m : GoMap String String) :
    ∃ read, (parse (renderStrings m)).bind intoStringMap = some read ∧
      ∀ k, read.lookup k = m.lookup k := by
  have hkeys : (m.entries.map fun e => (e.1, e.2)).map Prod.fst = m.entries.keys := by
    rw [List.map_map]
    rfl
  have hperm : (sortedStrings (m.entries.map fun e => (e.1, e.2)) []).Perm
      (m.entries.map (fun e => (e.1, e.2)) ++ []) :=
    sortedStrings_perm [] (by rw [List.append_nil, hkeys]; exact m.nodupKeys)
  rw [List.append_nil] at hperm
  -- the members as entries of a map
  have hentries := hperm.map fun e => (⟨e.1, e.2⟩ : Sigma fun _ : String => String)
  rw [List.map_map, show
    ((fun e : String × String => (⟨e.1, e.2⟩ : Sigma fun _ : String => String)) ∘
      fun e : Sigma fun _ : String => String => (e.1, e.2)) = id from rfl, List.map_id] at hentries
  have hnodup := (List.perm_nodupKeys hentries).mpr m.nodupKeys
  have hread : (parse (renderStrings m)).bind intoStringMap =
      some ((sortedStrings (m.entries.map fun e => (e.1, e.2)) []).foldl
        (fun m e => m.insert e.1 e.2) ∅) := by
    rw [renderStrings, parse_render_strings]
    exact foldlM_intoStringEntry ∅
  refine ⟨_, hread, fun k => ?_⟩
  have hfold := GoMap.lookup_foldl_insert_eq hnodup ∅ k
  rw [List.foldl_map, AList.lookup_empty, Option.or_none] at hfold
  rw [hfold]
  exact List.perm_dlookup k hnodup hentries

end

end Kaalm.Foundation.Json
