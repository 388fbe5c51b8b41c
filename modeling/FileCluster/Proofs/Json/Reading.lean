import FileCluster.Json.Shape
import FileCluster.Proofs.Json.Numbers
import FileCluster.Proofs.Json.Strings

/-!
JSON text reads back as the value that was written.

The way from a value to its text and back has three stages: the text splits into the tokens of the
value, the tokens build its outline, and the outline denotes its canonical form. Each holds for
every value without floating-point numbers, the last one up to the depth that a reader allows
(`Plain`). Main statement: the text of a plain value read as any value is the value in canonical
form (`ofBytes?_text`).
-/

namespace FileCluster.Json

open Text

mutual

/-- The numbers of a value are whole, and it nests at most so many levels. -/
def Plain (levels : Nat) : Json → Prop
  | .number (.float _) => False
  | .array items => 0 < levels ∧ PlainItems (levels - 1) items
  | .object members => 0 < levels ∧ PlainMembers (levels - 1) members
  | _ => True

/-- Every item is plain. -/
def PlainItems (levels : Nat) : List Json → Prop
  | [] => True
  | v :: rest => Plain levels v ∧ PlainItems levels rest

/-- The value of every member is plain. -/
def PlainMembers (levels : Nat) : List (String × Json) → Prop
  | [] => True
  | (_, v) :: rest => Plain levels v ∧ PlainMembers levels rest

end

mutual

/-- The tokens of a value's text. -/
def tokens : Json → List Token
  | .null => [.null]
  | .bool b => [.bool b]
  | .number n => [.number (some n)]
  | .string s => [.string (some s)]
  | .array [] => [.openBracket, .closeBracket]
  | .array (v :: rest) => .openBracket :: (v.tokens ++ (itemTokens rest ++ [.closeBracket]))
  | .object [] => [.openBrace, .closeBrace]
  | .object ((k, v) :: rest) =>
    .openBrace :: .string (some k) :: .colon :: (v.tokens ++ (memberTokens rest ++ [.closeBrace]))

/-- The tokens of further items. -/
def itemTokens : List Json → List Token
  | [] => []
  | v :: rest => .comma :: (v.tokens ++ itemTokens rest)

/-- The tokens of further members. -/
def memberTokens : List (String × Json) → List Token
  | [] => []
  | (k, v) :: rest => .comma :: .string (some k) :: .colon :: (v.tokens ++ memberTokens rest)

end

mutual

/-- What a value's text says. -/
def outline : Json → Outline
  | .null => .null
  | .bool b => .bool b
  | .number n => .number (some n)
  | .string s => .string (some s)
  | .array items => .array (itemOutlines items)
  | .object members => .object (memberOutlines members)

/-- What the text of each item says. -/
def itemOutlines : List Json → List Outline
  | [] => []
  | v :: rest => v.outline :: itemOutlines rest

/-- What the text of each member says. -/
def memberOutlines : List (String × Json) → List (Option String × Outline)
  | [] => []
  | (k, v) :: rest => (some k, v.outline) :: memberOutlines rest

end

/-! ## The bytes of a text -/

theorem appendString_eq (acc s : String) : appendString acc s = acc ++ appendString "" s := by
  refine encode_injective ?_
  rw [encode_append, encode_appendString, encode_appendString, encode_empty, List.nil_append]

mutual

theorem append_eq (acc : String) (v : Json) : append acc v = acc ++ append "" v := by
  match v with
  | .null | .bool true | .bool false | .number _ | .array [] | .object [] => simp [append]
  | .string s =>
    rw [append, append]
    exact appendString_eq acc s
  | .array (v :: rest) =>
    rw [append, append, appendItems_eq (append (acc.push '[') v), append_eq (acc.push '[') v,
      appendItems_eq (append ("".push '[') v), append_eq ("".push '[') v]
    simp [← String.toList_inj]
  | .object ((k, v) :: rest) =>
    rw [append, append, appendMembers_eq, append_eq, appendString_eq,
      appendMembers_eq (append ((appendString ("" ++ "\x7b") k).push ':') v),
      append_eq ((appendString ("" ++ "\x7b") k).push ':') v, appendString_eq ("" ++ "\x7b") k]
    simp [← String.toList_inj]

theorem appendItems_eq (acc : String) (items : List Json) :
    appendItems acc items = acc ++ appendItems "" items := by
  match items with
  | [] => simp [appendItems]
  | v :: rest =>
    rw [appendItems, appendItems, appendItems_eq, append_eq,
      appendItems_eq (append ("".push ',') v), append_eq ("".push ',') v]
    simp [← String.toList_inj]

theorem appendMembers_eq (acc : String) (members : List (String × Json)) :
    appendMembers acc members = acc ++ appendMembers "" members := by
  match members with
  | [] => simp [appendMembers]
  | (k, v) :: rest =>
    rw [appendMembers, appendMembers, appendMembers_eq, append_eq, appendString_eq,
      appendMembers_eq (append ((appendString ("".push ',') k).push ':') v),
      append_eq ((appendString ("".push ',') k).push ':') v, appendString_eq ("".push ',') k]
    simp [← String.toList_inj]

end

/-- The bytes of a value's text. -/
def written (v : Json) : List UInt8 := encode v.text

/-- The bytes of further items. -/
def writtenItems (items : List Json) : List UInt8 := encode (appendItems "" items)

/-- The bytes of further members. -/
def writtenMembers (members : List (String × Json)) : List UInt8 :=
  encode (appendMembers "" members)

theorem written_string (s : String) : written (.string s) = writtenString s := by
  unfold written text
  rw [append, encode_appendString, encode_empty, List.nil_append]

theorem written_array (v : Json) (rest : List Json) :
    written (.array (v :: rest)) = 0x5b :: (written v ++ (writtenItems rest ++ [0x5d])) := by
  unfold written text writtenItems
  have hopen : String.utf8EncodeChar '[' = [0x5b] := rfl
  have hclose : String.utf8EncodeChar ']' = [0x5d] := rfl
  rw [append, encode_push, appendItems_eq, append_eq, encode_append, encode_append, encode_push,
    hopen, hclose, encode_empty]
  simp

theorem written_object (k : String) (v : Json) (rest : List (String × Json)) :
    written (.object ((k, v) :: rest)) =
      0x7b :: (writtenString k ++ (0x3a :: (written v ++ (writtenMembers rest ++ [0x7d])))) := by
  unfold written text writtenMembers
  have hopen : encode "\x7b" = [0x7b] := rfl
  have hclose : encode "\x7d" = [0x7d] := rfl
  have hcolon : String.utf8EncodeChar ':' = [0x3a] := rfl
  rw [append, encode_append, appendMembers_eq, append_eq, encode_append, encode_append, encode_push,
    encode_appendString, encode_append, hopen, hclose, hcolon, encode_empty]
  simp

theorem writtenItems_cons (v : Json) (rest : List Json) :
    writtenItems (v :: rest) = 0x2c :: (written v ++ writtenItems rest) := by
  unfold written text writtenItems
  have hcomma : String.utf8EncodeChar ',' = [0x2c] := rfl
  rw [appendItems, appendItems_eq, append_eq, encode_append, encode_append, encode_push, hcomma,
    encode_empty]
  simp

theorem writtenMembers_cons (k : String) (v : Json) (rest : List (String × Json)) :
    writtenMembers ((k, v) :: rest) =
      0x2c :: (writtenString k ++ (0x3a :: (written v ++ writtenMembers rest))) := by
  unfold written text writtenMembers
  have hcomma : String.utf8EncodeChar ',' = [0x2c] := rfl
  have hcolon : String.utf8EncodeChar ':' = [0x3a] := rfl
  rw [appendMembers, appendMembers_eq, append_eq, encode_append, encode_append, encode_push,
    encode_appendString, encode_push, hcomma, hcolon, encode_empty]
  simp

/-! ## From the text to tokens -/

theorem tokensFrom?_cons {b : UInt8} {rest after : List UInt8} {t : Token} (done : List Token)
    (hblank : isBlankByte b = false) (h : tokenFrom? b rest = some (t, after)) :
    tokensFrom? done (b :: rest) = tokensFrom? (t :: done) after := by
  rw [tokensFrom?]
  simp only [hblank, Bool.false_eq_true, if_false]
  split
  · rename_i hnone
    rw [h] at hnone
    cases hnone
  · rename_i hsome
    rw [h] at hsome
    cases hsome
    rfl

theorem tokensFrom?_mark {b : UInt8} {t : Token} (done : List Token) (rest : List UInt8)
    (hblank : isBlankByte b = false) (h : mark? b = some t) :
    tokensFrom? done (b :: rest) = tokensFrom? (t :: done) rest := by
  refine tokensFrom?_cons done hblank ?_
  unfold tokenFrom?
  rw [h]

theorem tokensFrom?_string (done : List Token) (s : String) (rest : List UInt8) :
    tokensFrom? done (writtenString s ++ rest) = tokensFrom? (.string (some s) :: done) rest := by
  have htoken : tokenFrom? 0x22 (s.toList.flatMap writtenChar ++ 0x22 :: rest) =
      some (.string (some s), rest) := scalarFrom?_string s rest
  unfold writtenString
  rw [List.cons_append, List.append_assoc, List.singleton_append]
  exact tokensFrom?_cons done rfl htoken

theorem stops_writtenItems (items : List Json) {rest : List UInt8} (h : Stops rest) :
    Stops (writtenItems items ++ rest) := by
  cases items with
  | nil => exact h
  | cons v items =>
    rw [writtenItems_cons]
    exact stops_cons _ (Or.inl rfl)

theorem stops_writtenMembers (members : List (String × Json)) {rest : List UInt8}
    (h : Stops rest) : Stops (writtenMembers members ++ rest) := by
  cases members with
  | nil => exact h
  | cons m members =>
    obtain ⟨k, v⟩ := m
    rw [writtenMembers_cons]
    exact stops_cons _ (Or.inl rfl)

mutual

/-- The text of a value splits into the tokens of the value. -/
theorem tokensFrom?_written {levels : Nat} {v : Json} (h : v.Plain levels) (done : List Token)
    {rest : List UInt8} (hrest : Stops rest) :
    tokensFrom? done (written v ++ rest) = tokensFrom? (v.tokens.reverse ++ done) rest := by
  match v with
  | .null => exact tokensFrom?_cons done rfl rfl
  | .bool true => exact tokensFrom?_cons done rfl rfl
  | .bool false => exact tokensFrom?_cons done rfl rfl
  | .number (.int n hn) =>
    obtain ⟨b, bs, hbytes, hblank, htoken⟩ := tokenFrom?_int hn hrest
    have hwritten : written (.number (.int n hn)) = b :: bs := by
      rw [← hbytes]
      unfold written text
      rw [append, String.empty_append]
      rfl
    rw [hwritten]
    exact tokensFrom?_cons done hblank htoken
  | .number (.float x) =>
    rw [Plain] at h
    exact h.elim
  | .string s =>
    rw [written_string, tokens]
    exact tokensFrom?_string done s rest
  | .array [] =>
    exact (tokensFrom?_mark done _ rfl rfl).trans (tokensFrom?_mark _ rest rfl rfl)
  | .object [] =>
    exact (tokensFrom?_mark done _ rfl rfl).trans (tokensFrom?_mark _ rest rfl rfl)
  | .array (v :: items) =>
    rw [Plain, PlainItems] at h
    have hclose : Stops (0x5d :: rest) := stops_cons rest (Or.inr (Or.inl rfl))
    rw [written_array, tokens, List.cons_append, tokensFrom?_mark done _ rfl rfl, List.append_assoc,
      List.append_assoc, List.singleton_append,
      tokensFrom?_written h.2.1 _ (stops_writtenItems items hclose),
      tokensFrom?_items h.2.2 _ hclose, tokensFrom?_mark _ rest rfl rfl]
    simp
  | .object ((k, v) :: members) =>
    rw [Plain, PlainMembers] at h
    have hclose : Stops (0x7d :: rest) := stops_cons rest (Or.inr (Or.inr rfl))
    rw [written_object, tokens, List.cons_append, tokensFrom?_mark done _ rfl rfl, List.append_assoc,
      tokensFrom?_string, List.cons_append, tokensFrom?_mark _ _ rfl rfl, List.append_assoc,
      List.append_assoc, List.singleton_append,
      tokensFrom?_written h.2.1 _ (stops_writtenMembers members hclose),
      tokensFrom?_members h.2.2 _ hclose, tokensFrom?_mark _ rest rfl rfl]
    simp

theorem tokensFrom?_items {levels : Nat} {items : List Json} (h : PlainItems levels items)
    (done : List Token) {rest : List UInt8} (hrest : Stops rest) :
    tokensFrom? done (writtenItems items ++ rest) =
      tokensFrom? ((itemTokens items).reverse ++ done) rest := by
  match items with
  | [] =>
    rw [itemTokens]
    rfl
  | v :: items =>
    rw [PlainItems] at h
    rw [writtenItems_cons, itemTokens, List.cons_append, tokensFrom?_mark done _ rfl rfl,
      List.append_assoc, tokensFrom?_written h.1 _ (stops_writtenItems items hrest),
      tokensFrom?_items h.2 _ hrest]
    simp

theorem tokensFrom?_members {levels : Nat} {members : List (String × Json)}
    (h : PlainMembers levels members) (done : List Token) {rest : List UInt8}
    (hrest : Stops rest) :
    tokensFrom? done (writtenMembers members ++ rest) =
      tokensFrom? ((memberTokens members).reverse ++ done) rest := by
  match members with
  | [] =>
    rw [memberTokens]
    rfl
  | (k, v) :: members =>
    rw [PlainMembers] at h
    rw [writtenMembers_cons, memberTokens, List.cons_append, tokensFrom?_mark done _ rfl rfl,
      List.append_assoc, tokensFrom?_string, List.cons_append, tokensFrom?_mark _ _ rfl rfl,
      List.append_assoc, tokensFrom?_written h.1 _ (stops_writtenMembers members hrest),
      tokensFrom?_members h.2 _ hrest]
    simp

end

theorem tokens?_written {levels : Nat} {v : Json} (h : v.Plain levels) :
    tokens? (written v) = some v.tokens := by
  have hall := tokensFrom?_written h [] stops_nil
  rw [List.append_nil, List.append_nil] at hall
  unfold tokens?
  rw [hall, tokensFrom?, List.reverse_reverse]

/-! ## From tokens to an outline -/

namespace Outline

theorem run_cons {s s' : State} {t : Token} (ts : List Token) (h : s.step t = some s') :
    s.run (t :: ts) = s'.run ts := by
  rw [State.run, h]

/-- The first item of an array is read as any value is. -/
theorem run_firstItem (stack : List Frame) (v : Json) (ts : List Token) :
    State.run ⟨stack, .firstItem⟩ (v.tokens ++ ts) = State.run ⟨stack, .value⟩ (v.tokens ++ ts) := by
  match v with
  | .null | .bool _ | .number _ | .string _ | .array [] | .array (_ :: _) | .object []
  | .object (_ :: _) =>
    rw [tokens]
    rfl

mutual

/-- The tokens of a value are read as its outline. -/
theorem run_tokens (stack : List Frame) (v : Json) (ts : List Token) :
    State.run ⟨stack, .value⟩ (v.tokens ++ ts) = State.run ⟨stack, .after v.outline⟩ ts := by
  match v with
  | .null | .bool _ | .number _ | .string _ =>
    rw [tokens, outline]
    rfl
  | .array [] =>
    rw [tokens, outline, itemOutlines]
    rfl
  | .object [] =>
    rw [tokens, outline, memberOutlines]
    rfl
  | .array (v :: items) =>
    have hopen : State.run ⟨stack, .value⟩ ((Json.array (v :: items)).tokens ++ ts) =
        State.run ⟨.array [] :: stack, .firstItem⟩
          (v.tokens ++ (itemTokens items ++ .closeBracket :: ts)) := by
      rw [tokens, List.cons_append, List.append_assoc, List.append_assoc]
      rfl
    rw [hopen, run_firstItem, run_tokens, run_itemTokens, outline, itemOutlines]
    rfl
  | .object ((k, v) :: members) =>
    have hopen : State.run ⟨stack, .value⟩ ((Json.object ((k, v) :: members)).tokens ++ ts) =
        State.run ⟨.object [] (some k) :: stack, .value⟩
          (v.tokens ++ (memberTokens members ++ .closeBrace :: ts)) := by
      rw [tokens, List.cons_append, List.cons_append, List.cons_append, List.append_assoc,
        List.append_assoc]
      rfl
    rw [hopen, run_tokens, run_memberTokens, outline, memberOutlines]
    rfl

theorem run_itemTokens (stack : List Frame) (done : List Outline) (last : Outline)
    (items : List Json) (ts : List Token) :
    State.run ⟨.array done :: stack, .after last⟩ (itemTokens items ++ .closeBracket :: ts) =
      State.run ⟨stack, .after (.array (done.reverse ++ last :: itemOutlines items))⟩ ts := by
  match items with
  | [] =>
    have hclose : State.step ⟨.array done :: stack, .after last⟩ .closeBracket =
        some ⟨stack, .after (.array (last :: done).reverse)⟩ := rfl
    rw [itemTokens, itemOutlines, List.nil_append, run_cons ts hclose, List.reverse_cons]
  | v :: items =>
    rw [itemTokens, itemOutlines, List.cons_append, List.append_assoc]
    have hcomma : State.step ⟨.array done :: stack, .after last⟩ .comma =
        some ⟨.array (last :: done) :: stack, .value⟩ := rfl
    rw [run_cons _ hcomma, run_tokens, run_itemTokens]
    simp

theorem run_memberTokens (stack : List Frame) (done : List (Option String × Outline))
    (key : Option String) (last : Outline) (members : List (String × Json)) (ts : List Token) :
    State.run ⟨.object done key :: stack, .after last⟩ (memberTokens members ++ .closeBrace :: ts) =
      State.run
        ⟨stack, .after (.object (done.reverse ++ (key, last) :: memberOutlines members))⟩ ts := by
  match members with
  | [] =>
    have hclose : State.step ⟨.object done key :: stack, .after last⟩ .closeBrace =
        some ⟨stack, .after (.object ((key, last) :: done).reverse)⟩ := rfl
    rw [memberTokens, memberOutlines, List.nil_append, run_cons ts hclose, List.reverse_cons]
  | (k, v) :: members =>
    rw [memberTokens, memberOutlines, List.cons_append, List.cons_append, List.cons_append,
      List.append_assoc]
    have hcomma : State.step ⟨.object done key :: stack, .after last⟩ .comma =
        some ⟨stack, .key ((key, last) :: done)⟩ := rfl
    have hkey : State.step ⟨stack, .key ((key, last) :: done)⟩ (.string (some k)) =
        some ⟨stack, .colon ((key, last) :: done) (some k)⟩ := rfl
    have hcolon : State.step ⟨stack, .colon ((key, last) :: done) (some k)⟩ .colon =
        some ⟨.object ((key, last) :: done) (some k) :: stack, .value⟩ := rfl
    rw [run_cons _ hcomma, run_cons _ hkey, run_cons _ hcolon, run_tokens, run_memberTokens]
    simp

end

theorem ofTokens?_tokens (v : Json) : ofTokens? v.tokens = some v.outline := by
  have hrun := run_tokens [] v []
  rw [List.append_nil] at hrun
  unfold ofTokens? State.start
  rw [hrun]
  rfl

/-! ## From an outline to a value -/

mutual

/-- The outline of a plain value denotes its canonical form. -/
theorem value?_outline {levels : Nat} {v : Json} (h : v.Plain levels) :
    v.outline.value? levels = some v.canonical := by
  match v with
  | .null | .bool _ | .number _ | .string _ => simp [outline, value?, canonical]
  | .array items =>
    rw [Plain] at h
    obtain ⟨n, rfl⟩ : ∃ n, levels = n + 1 := ⟨levels - 1, by omega⟩
    have hitems : PlainItems n items := h.2
    rw [outline, value?, canonical, items?_outlines hitems]
    rfl
  | .object members =>
    rw [Plain] at h
    obtain ⟨n, rfl⟩ : ∃ n, levels = n + 1 := ⟨levels - 1, by omega⟩
    have hmembers : PlainMembers n members := h.2
    rw [outline, value?, canonical, members?_outlines hmembers]
    rfl

theorem items?_outlines {levels : Nat} {items : List Json} (h : PlainItems levels items)
    (done : List Json) :
    items? levels done (itemOutlines items) = some (canonicalItems done items) := by
  match items with
  | [] => rw [itemOutlines, items?, canonicalItems]
  | v :: items =>
    rw [PlainItems] at h
    rw [itemOutlines, items?, canonicalItems, value?_outline h.1]
    exact items?_outlines h.2 _

theorem members?_outlines {levels : Nat} {members : List (String × Json)}
    (h : PlainMembers levels members) (done : List (String × Json)) :
    members? levels done (memberOutlines members) = some (canonicalMembers done members) := by
  match members with
  | [] => rw [memberOutlines, members?, canonicalMembers]
  | (k, v) :: members =>
    rw [PlainMembers] at h
    simp only [memberOutlines, members?, canonicalMembers, value?_outline h.1]
    exact members?_outlines h.2 _

end

end Outline

/-! ## From the text to a value -/

theorem read?_written {levels : Nat} {v : Json} (h : v.Plain levels) (shape : Shape) :
    read? shape (written v) = shape.read? v.outline := by
  unfold read?
  rw [tokens?_written h]
  dsimp only
  rw [Outline.ofTokens?_tokens]

/-- The text of a plain value reads back as the value in canonical form. -/
theorem ofBytes?_text {v : Json} (h : v.Plain maxDepth) :
    ofBytes? (encode v.text) = some v.canonical := by
  refine (read?_written h _).trans ?_
  unfold Shape.read? Form.read?
  exact Outline.value?_outline h

end FileCluster.Json
