/-
# JSON values read back from their text

The compact text of a value is read back as the same value: every string character by character,
escaped or not, members and items in their order, and no more.  The reader is two folds, so there
are two stages: the text goes to the value's tokens, whatever text follows, and the tokens go to
the value, in whatever arrays and objects it stands.

* `Lexes`, `Assembles`: the two stages for one value;
* `ofText?_compact`: a value read back.
-/
import Reconciliation.Json.Printer
import Reconciliation.Json.Reader
import Reconciliation.Proofs.Text.Digits

namespace Reconciliation
namespace Json

/-! ## 1. Values that can be read back -/

/-- A character at which a word ends. -/
def endsWord (c : Char) : Bool := isJsonBlank c || c == '"' || (markOf? c).isSome

/-- The characters are one word, and it stands for the value. -/
structure IsWord (cs : List Char) (j : Json) : Prop where
  ne_nil : cs ≠ []
  unbroken : ∀ c ∈ cs, endsWord c = false
  value : ofWord? cs = some j

/-- `Readable d j`: the value nests at most `d` levels deep, and its numbers are read back from
their text. -/
inductive Readable : Nat → Json → Prop
  | null {d : Nat} : Readable d .null
  | bool {d : Nat} (b : Bool) : Readable d (.bool b)
  | number {d : Nat} {n : Number} : IsWord n.toText.toList (.number n) → Readable d (.number n)
  | text {d : Nat} (s : String) : Readable d (.text s)
  | array {d : Nat} {items : List Json} :
      (∀ j ∈ items, Readable d j) → Readable (d + 1) (.array items)
  | object {d : Nat} {members : List (String × Json)} :
      (∀ m ∈ members, Readable d m.2) → Readable (d + 1) (.object members)

theorem readable_ofOption {α : Type} {d : Nat} {write : α → Json} {o : Option α}
    (h : ∀ a ∈ o, Readable d (write a)) : Readable d (ofOption write o) := by
  cases o with
  | none => exact .null
  | some a => exact h a rfl

theorem readable_map {α : Type} {d : Nat} {write : α → Json} {l : List α}
    (h : ∀ a ∈ l, Readable d (write a)) : Readable (d + 1) (.array (l.map write)) :=
  .array (List.forall_mem_map.2 h)

theorem isWord_null : IsWord "null".toList .null where
  ne_nil := by decide
  unbroken := by simp [endsWord, isJsonBlank, markOf?]
  value := rfl

theorem isWord_bool (b : Bool) : IsWord (Json.bool b).compact.toList (.bool b) := by
  cases b with
  | true => exact ⟨by decide, by simp [compact, endsWord, isJsonBlank, markOf?], rfl⟩
  | false => exact ⟨by decide, by simp [compact, endsWord, isJsonBlank, markOf?], rfl⟩

/-! ## 2. The tokens of a value -/

mutual

/-- The tokens that a value is written with. -/
def tokensOf : Json → List Token
  | .null => [.scalar .null]
  | .bool b => [.scalar (.bool b)]
  | .number n => [.scalar (.number n)]
  | .text s => [.string s]
  | .array items => .openArray :: (itemTokens items ++ [.closeArray])
  | .object members => .openObject :: (memberTokens members ++ [.closeObject])

def itemTokens : List Json → List Token
  | [] => []
  | [j] => tokensOf j
  | j :: rest => tokensOf j ++ .comma :: itemTokens rest

def memberTokens : List (String × Json) → List Token
  | [] => []
  | [(n, j)] => .string n :: .colon :: tokensOf j
  | (n, j) :: rest => .string n :: .colon :: (tokensOf j ++ .comma :: memberTokens rest)

end

/-! ## 3. From text to tokens -/

/-- The tokens at the end of a text. -/
def closeLex? : List Token × LexState → Option (List Token)
  | (tokens, .between) => some tokens.reverse
  | (tokens, .word chars) =>
    (ofWord? chars.reverse).map fun j => (Token.scalar j :: tokens).reverse
  | (_, .inside _ _) => none

/-- The tokens of a text whose beginning was read already. -/
def lexFrom (start : List Token × LexState) (cs : List Char) : Option (List Token) :=
  (cs.foldlM lexStep start).bind closeLex?

theorem ofChars?_eq_lexFrom (cs : List Char) :
    Token.ofChars? cs = lexFrom ([], .between) cs := by
  unfold Token.ofChars? lexFrom
  cases cs.foldlM lexStep ([], .between) with
  | none => rfl
  | some last =>
    obtain ⟨tokens, state⟩ := last
    cases state <;> rfl

theorem lexFrom_nil (start : List Token × LexState) : lexFrom start [] = closeLex? start := rfl

theorem lexFrom_cons (start : List Token × LexState) (c : Char) (cs : List Char) :
    lexFrom start (c :: cs) = (lexStep start c).bind (lexFrom · cs) := by
  simp only [lexFrom, List.foldlM_cons, Option.bind_eq_bind, Option.bind_assoc]

variable {tokens : List Token} {cs : List Char}

theorem lexFrom_mark {c : Char} {t : Token} (h : markOf? c = some t) :
    lexFrom (tokens, .between) (c :: cs) = lexFrom (t :: tokens, .between) cs := by
  have hstep : betweenStep tokens c = (t :: tokens, .between) := by
    unfold markOf? at h
    split at h <;> cases h <;> rfl
  rw [lexFrom_cons, lexStep, hstep, Option.bind_some]

/-- What follows a word does not go on with it. -/
def EndsWord (cs : List Char) : Prop := ∀ c ∈ cs.head?, endsWord c = true

theorem endsWord_cons {c : Char} (h : endsWord c = true) : EndsWord (c :: cs) := by
  intro d hd
  cases hd
  exact h

theorem lexFrom_word_chars {chars w : List Char} (hw : ∀ c ∈ w, endsWord c = false) :
    lexFrom (tokens, .word chars) (w ++ cs) = lexFrom (tokens, .word (w.reverse ++ chars)) cs := by
  induction w generalizing chars with
  | nil => rfl
  | cons c w ih =>
    have hc : (isJsonBlank c || c == '"' || (markOf? c).isSome) = false :=
      hw c List.mem_cons_self
    rw [List.cons_append, lexFrom_cons, lexStep, hc, if_neg (by simp), Option.bind_some,
      ih fun d hd => hw d (List.mem_cons_of_mem c hd)]
    simp

/-- A word is the token of its value. -/
theorem lexFrom_word {w : List Char} {j : Json} (hw : IsWord w j) (hcs : EndsWord cs) :
    lexFrom (tokens, .between) (w ++ cs) = lexFrom (.scalar j :: tokens, .between) cs := by
  obtain ⟨hne, hunbroken, hvalue⟩ := hw
  obtain ⟨c, w, rfl⟩ := List.exists_cons_of_ne_nil hne
  have hstep : betweenStep tokens c = (tokens, .word [c]) := by
    have hc := hunbroken c List.mem_cons_self
    simp only [endsWord, Bool.or_eq_false_iff] at hc
    have hmark : markOf? c = none := by simpa using hc.2
    simp only [betweenStep, hc.1.1, hc.1.2, hmark, Bool.false_eq_true, if_false]
  rw [List.cons_append, lexFrom_cons, lexStep, hstep, Option.bind_some,
    lexFrom_word_chars fun d hd => hunbroken d (List.mem_cons_of_mem c hd)]
  have hreverse : (w.reverse ++ [c]).reverse = c :: w := by simp
  cases cs with
  | nil => simp only [lexFrom_nil, closeLex?, hreverse, hvalue, Option.map_some]
  | cons d cs =>
    have hd : (isJsonBlank d || d == '"' || (markOf? d).isSome) = true := hcs d rfl
    simp only [lexFrom_cons, lexStep, hd, if_true, hreverse, hvalue, Option.map_some]

/-! ## 4. Strings -/

variable {chars : List Char}

/-- A backslash and one more character. -/
theorem lexFrom_backslash {c e : Char} (h : escapeOf? e = some c) :
    lexFrom (tokens, .inside chars .plain) ('\\' :: e :: cs) =
      lexFrom (tokens, .inside (c :: chars) .plain) cs := by
  have hu : (e == 'u') = false := by
    cases hu : e == 'u' with
    | false => rfl
    | true =>
      rw [eq_of_beq hu] at h
      cases h
  have hbackslash : lexStep (tokens, .inside chars .plain) '\\' =
      some (tokens, .inside chars (.escaped none)) := rfl
  rw [lexFrom_cons, hbackslash, Option.bind_some, lexFrom_cons]
  simp only [lexStep, stringStep?, hu, h, Option.isSome_none, Bool.false_eq_true, if_false,
    Option.map_some, Option.bind_some]

/-- A control character by its code point. -/
theorem lexFrom_unit {c : Char} (h : c.toNat < 0x20) :
    lexFrom (tokens, .inside chars .plain)
        ('\\' :: 'u' :: '0' :: '0' :: Text.hexDigit (c.toNat / 16) :: Text.hexDigit c.toNat :: cs) =
      lexFrom (tokens, .inside (c :: chars) .plain) cs := by
  have hbackslash : lexStep (tokens, .inside chars .plain) '\\' =
      some (tokens, .inside chars (.escaped none)) := rfl
  have hu : lexStep (tokens, .inside chars (.escaped none)) 'u' =
      some (tokens, .inside chars (.unit none 0 0)) := rfl
  have h0 : lexStep (tokens, .inside chars (.unit none 0 0)) '0' =
      some (tokens, .inside chars (.unit none 1 0)) := rfl
  have h1 : lexStep (tokens, .inside chars (.unit none 1 0)) '0' =
      some (tokens, .inside chars (.unit none 2 0)) := rfl
  have h2 : lexStep (tokens, .inside chars (.unit none 2 0)) (Text.hexDigit (c.toNat / 16)) =
      some (tokens, .inside chars (.unit none 3 (c.toNat / 16 % 16))) := by
    simp [lexStep, stringStep?, Text.hexValue?_hexDigit]
  have hvalue : c.toNat / 16 % 16 * 16 + c.toNat % 16 = c.toNat := by omega
  have h3 : lexStep (tokens, .inside chars (.unit none 3 (c.toNat / 16 % 16)))
      (Text.hexDigit c.toNat) = some (tokens, .inside (c :: chars) .plain) := by
    simp only [lexStep, stringStep?, Text.hexValue?_hexDigit, Option.bind_eq_bind,
      Option.bind_some, hvalue, if_true, closeUnit?]
    rw [if_neg (by omega), if_neg (by omega), Char.ofNat_toNat]
    rfl
  rw [lexFrom_cons, hbackslash, Option.bind_some, lexFrom_cons, hu, Option.bind_some,
    lexFrom_cons, h0, Option.bind_some, lexFrom_cons, h1, Option.bind_some, lexFrom_cons, h2,
    Option.bind_some, lexFrom_cons, h3, Option.bind_some]

/-- A character that needs no escape. -/
theorem lexFrom_plain {c : Char} (hquote : ¬ (c == '"') = true) (hbackslash : ¬ (c == '\\') = true)
    (hcontrol : ¬ c.toNat < 0x20) :
    lexFrom (tokens, .inside chars .plain) (c :: cs) =
      lexFrom (tokens, .inside (c :: chars) .plain) cs := by
  rw [lexFrom_cons]
  simp only [lexStep, stringStep?, hquote, hbackslash, hcontrol, Bool.false_eq_true, if_false,
    Option.map_some, Option.bind_some]

/-- A character as it is written inside a string is read as itself. -/
theorem lexFrom_escapeChar (c : Char) :
    lexFrom (tokens, .inside chars .plain) (escapeChar c ++ cs) =
      lexFrom (tokens, .inside (c :: chars) .plain) cs := by
  by_cases hquote : (c == '"') = true
  · rw [eq_of_beq hquote]
    exact lexFrom_backslash rfl
  by_cases hbackslash : (c == '\\') = true
  · rw [eq_of_beq hbackslash]
    exact lexFrom_backslash rfl
  unfold escapeChar
  rw [if_neg hquote, if_neg hbackslash]
  split
  · rename_i h
    rw [eq_of_beq h]
    exact lexFrom_backslash rfl
  split
  · rename_i h
    rw [eq_of_beq h]
    exact lexFrom_backslash rfl
  split
  · rename_i h
    rw [eq_of_beq h]
    exact lexFrom_backslash rfl
  split
  · rename_i h
    rw [eq_of_beq h]
    exact lexFrom_backslash rfl
  split
  · rename_i h
    rw [eq_of_beq h]
    exact lexFrom_backslash rfl
  split
  · rename_i h
    exact lexFrom_unit h
  · rename_i h
    exact lexFrom_plain hquote hbackslash h

theorem lexFrom_inside (s : List Char) :
    lexFrom (tokens, .inside chars .plain) (s.flatMap escapeChar ++ '"' :: cs) =
      lexFrom (.string (String.ofList (chars.reverse ++ s)) :: tokens, .between) cs := by
  induction s generalizing chars with
  | nil =>
    rw [List.flatMap_nil, List.nil_append, lexFrom_cons, lexStep, if_pos (by decide),
      Option.bind_some, List.append_nil]
  | cons c s ih =>
    rw [List.flatMap_cons, List.append_assoc, lexFrom_escapeChar, ih]
    simp

/-- A string in quotes is the token of that string. -/
theorem lexFrom_quoted (s : String) :
    lexFrom (tokens, .between) ((quoted s).toList ++ cs) =
      lexFrom (.string s :: tokens, .between) cs := by
  have hstep : betweenStep tokens '"' = (tokens, .inside [] .plain) := rfl
  simp only [quoted, String.toList_ofList, List.cons_append, List.append_assoc, List.nil_append]
  rw [lexFrom_cons, lexStep, hstep, Option.bind_some, lexFrom_inside, List.reverse_nil,
    List.nil_append, String.ofList_toList]

/-! ## 5. Values -/

/-- The text of the value is read as the tokens of the value, whatever follows. -/
def Lexes (j : Json) : Prop :=
  ∀ (tokens : List Token) (cs : List Char), EndsWord cs →
    lexFrom (tokens, .between) (j.compact.toList ++ cs) =
      lexFrom ((tokensOf j).reverse ++ tokens, .between) cs

theorem toList_compactItems_cons (j k : Json) (rest : List Json) :
    (compactItems (j :: k :: rest)).toList =
      j.compact.toList ++ ',' :: (compactItems (k :: rest)).toList := by
  simp [compactItems]

theorem toList_compactMembers_singleton (n : String) (j : Json) :
    (compactMembers [(n, j)]).toList = (quoted n).toList ++ ':' :: j.compact.toList := by
  simp [compactMembers]

theorem toList_compactMembers_cons (n : String) (j : Json) (m : String × Json)
    (rest : List (String × Json)) :
    (compactMembers ((n, j) :: m :: rest)).toList =
      (quoted n).toList ++
        ':' :: (j.compact.toList ++ ',' :: (compactMembers (m :: rest)).toList) := by
  simp [compactMembers]

theorem lexFrom_items {items : List Json} (h : ∀ j ∈ items, Lexes j) (tokens : List Token)
    (cs : List Char) :
    lexFrom (tokens, .between) ((compactItems items).toList ++ ']' :: cs) =
      lexFrom ((itemTokens items).reverse ++ tokens, .between) (']' :: cs) := by
  induction items generalizing tokens with
  | nil => simp [compactItems, itemTokens]
  | cons j rest ih =>
    have hj := h j List.mem_cons_self
    cases rest with
    | nil =>
      simp only [compactItems, itemTokens]
      exact hj tokens _ (endsWord_cons (by decide))
    | cons k rest =>
      rw [toList_compactItems_cons, itemTokens, List.append_assoc, List.cons_append,
        hj tokens _ (endsWord_cons (by decide)), lexFrom_mark (t := .comma) rfl,
        ih fun j' hj' => h j' (List.mem_cons_of_mem j hj')]
      · simp
      · simp

theorem lexFrom_members {members : List (String × Json)} (h : ∀ m ∈ members, Lexes m.2)
    (tokens : List Token) (cs : List Char) :
    lexFrom (tokens, .between) ((compactMembers members).toList ++ '\x7d' :: cs) =
      lexFrom ((memberTokens members).reverse ++ tokens, .between) ('\x7d' :: cs) := by
  induction members generalizing tokens with
  | nil => simp [compactMembers, memberTokens]
  | cons m rest ih =>
    obtain ⟨n, j⟩ := m
    have hj : Lexes j := h (n, j) List.mem_cons_self
    cases rest with
    | nil =>
      rw [toList_compactMembers_singleton, memberTokens, List.append_assoc, List.cons_append,
        lexFrom_quoted, lexFrom_mark (t := .colon) rfl, hj _ _ (endsWord_cons (by decide))]
      simp
    | cons m' rest =>
      rw [toList_compactMembers_cons, memberTokens, List.append_assoc, List.cons_append,
        List.append_assoc, List.cons_append, lexFrom_quoted, lexFrom_mark (t := .colon) rfl,
        hj _ _ (endsWord_cons (by decide)), lexFrom_mark (t := .comma) rfl,
        ih fun m hm => h m (List.mem_cons_of_mem _ hm)]
      · simp
      · simp

theorem lexes_of_readable {d : Nat} {j : Json} (h : Readable d j) : Lexes j := by
  induction h with
  | null => exact fun tokens cs hcs => lexFrom_word isWord_null hcs
  | bool b => exact fun tokens cs hcs => lexFrom_word (isWord_bool b) hcs
  | number hword => exact fun tokens cs hcs => lexFrom_word hword hcs
  | text s => exact fun tokens cs _ => lexFrom_quoted s
  | @array d items _ ih =>
    intro tokens cs _
    simp only [compact, tokensOf, String.toList_append, List.append_assoc]
    show lexFrom _ ('[' :: ((compactItems items).toList ++ ']' :: cs)) = _
    rw [lexFrom_mark (t := .openArray) rfl, lexFrom_items ih, lexFrom_mark (t := .closeArray) rfl]
    simp
  | @object d members _ ih =>
    intro tokens cs _
    simp only [compact, tokensOf, String.toList_append, List.append_assoc]
    show lexFrom _ ('\x7b' :: ((compactMembers members).toList ++ '\x7d' :: cs)) = _
    rw [lexFrom_mark (t := .openObject) rfl, lexFrom_members ih,
      lexFrom_mark (t := .closeObject) rfl]
    simp

/-! ## 6. From tokens to values -/

/-- The assembly after some more tokens. -/
def assembleFrom (a : Assembly) (tokens : List Token) : Option Assembly :=
  tokens.foldlM Assembly.step a

theorem assembleFrom_cons (a : Assembly) (t : Token) (rest : List Token) :
    assembleFrom a (t :: rest) = (a.step t).bind (assembleFrom · rest) := rfl

/-- A value may come next. -/
def Expectation.allowsValue (e : Expectation) : Prop := e = .value ∨ e = .valueOrEnd

/-- The tokens of the value put it in its place, if it nests at most `d` levels deep. -/
def Assembles (d : Nat) (j : Json) : Prop :=
  ∀ (frames : List Frame) (e : Expectation) (rest : List Token), e.allowsValue →
    frames.length + d ≤ maxDepth →
    assembleFrom ⟨frames, e, none⟩ (tokensOf j ++ rest) =
      (Assembly.place frames j).bind (assembleFrom · rest)

theorem assembleFrom_scalar {frames : List Frame} {e : Expectation} (he : e.allowsValue) (j : Json)
    (rest : List Token) :
    assembleFrom ⟨frames, e, none⟩ (.scalar j :: rest) =
      (Assembly.place frames j).bind (assembleFrom · rest) := by
  have hstep : Assembly.step ⟨frames, e, none⟩ (.scalar j) = Assembly.place frames j := if_pos he
  rw [assembleFrom_cons, hstep]

theorem assembleFrom_string {frames : List Frame} {e : Expectation} (he : e.allowsValue)
    (s : String) (rest : List Token) :
    assembleFrom ⟨frames, e, none⟩ (.string s :: rest) =
      (Assembly.place frames (.text s)).bind (assembleFrom · rest) := by
  rcases he with rfl | rfl <;> rfl

theorem assembleFrom_closeArray (acc : List Json) (frames : List Frame) (rest : List Token) :
    assembleFrom ⟨.array acc :: frames, .commaOrEnd, none⟩ (.closeArray :: rest) =
      (Assembly.place frames (.array acc.reverse)).bind (assembleFrom · rest) := rfl

theorem assembleFrom_nextItem (acc : List Json) (frames : List Frame) (rest : List Token) :
    assembleFrom ⟨.array acc :: frames, .commaOrEnd, none⟩ (.comma :: rest) =
      assembleFrom ⟨.array acc :: frames, .value, none⟩ rest := rfl

/-- The items that are left of an array, and its end. -/
theorem assembleFrom_items {d : Nat} {j : Json} {items acc : List Json} {frames : List Frame}
    {e : Expectation} (h : ∀ k ∈ j :: items, Assembles d k) (he : e.allowsValue)
    (hd : frames.length + 1 + d ≤ maxDepth) (rest : List Token) :
    assembleFrom ⟨.array acc :: frames, e, none⟩ (itemTokens (j :: items) ++ .closeArray :: rest) =
      (Assembly.place frames (.array (acc.reverse ++ j :: items))).bind (assembleFrom · rest) := by
  induction items generalizing j acc e with
  | nil =>
    rw [itemTokens, h j List.mem_cons_self _ _ _ he (by simpa using hd), Assembly.place,
      Option.bind_some, assembleFrom_closeArray, List.reverse_cons]
  | cons k items ih =>
    rw [itemTokens, List.append_assoc, List.cons_append,
      h j List.mem_cons_self _ _ _ he (by simpa using hd), Assembly.place, Option.bind_some,
      assembleFrom_nextItem, ih (fun k' hk' => h k' (List.mem_cons_of_mem j hk')) (.inl rfl)]
    · simp
    · simp

/-- A member may come next. -/
def Expectation.allowsName (e : Expectation) : Prop := e = .name ∨ e = .nameOrEnd

theorem assembleFrom_name {acc : List (String × Json)} {frames : List Frame} {e : Expectation}
    (he : e.allowsName) (n : String) (rest : List Token) :
    assembleFrom ⟨.object acc none :: frames, e, none⟩ (.string n :: .colon :: rest) =
      assembleFrom ⟨.object acc (some n) :: frames, .value, none⟩ rest := by
  rcases he with rfl | rfl <;> rfl

theorem assembleFrom_closeObject (acc : List (String × Json)) (frames : List Frame)
    (rest : List Token) :
    assembleFrom ⟨.object acc none :: frames, .commaOrEnd, none⟩ (.closeObject :: rest) =
      (Assembly.place frames (.object acc.reverse)).bind (assembleFrom · rest) := rfl

theorem assembleFrom_nextMember (acc : List (String × Json)) (frames : List Frame)
    (rest : List Token) :
    assembleFrom ⟨.object acc none :: frames, .commaOrEnd, none⟩ (.comma :: rest) =
      assembleFrom ⟨.object acc none :: frames, .name, none⟩ rest := rfl

/-- The members that are left of an object, and its end. -/
theorem assembleFrom_members {d : Nat} {m : String × Json} {members acc : List (String × Json)}
    {frames : List Frame} {e : Expectation} (h : ∀ k ∈ m :: members, Assembles d k.2)
    (he : e.allowsName) (hd : frames.length + 1 + d ≤ maxDepth) (rest : List Token) :
    assembleFrom ⟨.object acc none :: frames, e, none⟩
        (memberTokens (m :: members) ++ .closeObject :: rest) =
      (Assembly.place frames (.object (acc.reverse ++ m :: members))).bind
        (assembleFrom · rest) := by
  induction members generalizing m acc e with
  | nil =>
    obtain ⟨n, j⟩ := m
    rw [memberTokens, List.cons_append, List.cons_append, assembleFrom_name he,
      h (n, j) List.mem_cons_self _ _ _ (.inl rfl) (by simpa using hd), Assembly.place,
      Option.bind_some, assembleFrom_closeObject, List.reverse_cons]
  | cons m' members ih =>
    obtain ⟨n, j⟩ := m
    rw [memberTokens, List.cons_append, List.cons_append, assembleFrom_name he,
      List.append_assoc, List.cons_append,
      h (n, j) List.mem_cons_self _ _ _ (.inl rfl) (by simpa using hd), Assembly.place,
      Option.bind_some, assembleFrom_nextMember,
      ih (fun k hk => h k (List.mem_cons_of_mem _ hk)) (.inl rfl)]
    · simp
    · simp

theorem assembleFrom_openArray {frames : List Frame} {e : Expectation} (he : e.allowsValue)
    (hd : frames.length < maxDepth) (rest : List Token) :
    assembleFrom ⟨frames, e, none⟩ (.openArray :: rest) =
      assembleFrom ⟨.array [] :: frames, .valueOrEnd, none⟩ rest := by
  have hstep : Assembly.step ⟨frames, e, none⟩ .openArray =
      some ⟨.array [] :: frames, .valueOrEnd, none⟩ := if_pos ⟨he, hd⟩
  rw [assembleFrom_cons, hstep, Option.bind_some]

theorem assembleFrom_openObject {frames : List Frame} {e : Expectation} (he : e.allowsValue)
    (hd : frames.length < maxDepth) (rest : List Token) :
    assembleFrom ⟨frames, e, none⟩ (.openObject :: rest) =
      assembleFrom ⟨.object [] none :: frames, .nameOrEnd, none⟩ rest := by
  have hstep : Assembly.step ⟨frames, e, none⟩ .openObject =
      some ⟨.object [] none :: frames, .nameOrEnd, none⟩ := if_pos ⟨he, hd⟩
  rw [assembleFrom_cons, hstep, Option.bind_some]

theorem assembles_of_readable {d : Nat} {j : Json} (h : Readable d j) : Assembles d j := by
  induction h with
  | null => exact fun frames e rest he _ => assembleFrom_scalar he .null rest
  | bool b => exact fun frames e rest he _ => assembleFrom_scalar he (.bool b) rest
  | @number _ n _ => exact fun frames e rest he _ => assembleFrom_scalar he (.number n) rest
  | text s => exact fun frames e rest he _ => assembleFrom_string he s rest
  | @array d items _ ih =>
    intro frames e rest he hd
    rw [tokensOf, List.cons_append, assembleFrom_openArray he (by omega), List.append_assoc]
    cases items with
    | nil => rfl
    | cons j items => exact assembleFrom_items ih (.inr rfl) (by omega) rest
  | @object d members _ ih =>
    intro frames e rest he hd
    rw [tokensOf, List.cons_append, assembleFrom_openObject he (by omega), List.append_assoc]
    cases members with
    | nil => rfl
    | cons m members => exact assembleFrom_members ih (.inr rfl) (by omega) rest

/-- **A value read back from its compact text is the same**, if it does not nest too deep. -/
theorem ofText?_compact {d : Nat} {j : Json} (h : Readable d j) (hd : d ≤ maxDepth) :
    ofText? j.compact = some j := by
  have htokens : Token.ofChars? j.compact.toList = some (tokensOf j) := by
    have hlex := lexes_of_readable h [] [] (by simp [EndsWord])
    rw [ofChars?_eq_lexFrom]
    simpa [lexFrom_nil, closeLex?] using hlex
  have hvalue : assembleFrom .start (tokensOf j) = some ⟨[], .nothing, some j⟩ := by
    have hassemble := assembles_of_readable h [] .value [] (.inl rfl) (by simpa using hd)
    rwa [List.append_nil] at hassemble
  rw [ofText?, ofChars?, htokens, Option.bind_some, ofTokens?]
  exact congrArg (Option.bind · _) hvalue

end Json
end Reconciliation
