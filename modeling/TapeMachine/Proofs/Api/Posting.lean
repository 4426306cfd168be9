import TapeMachine.Api.Service

/-!
# Posting a code

A text of plain characters stands in a JSON string as it is. So a request can be written down that
posts it as a code, `posting`, and `call?_posting` says that the service reads the same code from
it. Texts of operators are plain.
-/

namespace TapeMachine

/-! ## Plain characters -/

/-- A character of ASCII that stands for itself in a JSON string. -/
structure IsPlain (c : Char) : Prop where
  printable : 0x20 ≤ c.toNat
  ascii : c.toNat < 0x80
  ne_quote : c ≠ '"'
  ne_backslash : c ≠ '\\'

/-- Operators are plain. -/
theorem Operator.isPlain_char (op : Operator) : IsPlain op.char := by
  cases op <;> constructor <;> decide

/-! ## Bytes of ASCII -/

namespace Text

/-- The bytes of characters of ASCII, one for each. -/
def asciiBytes (text : List Char) : List UInt8 :=
  text.map fun c ↦ UInt8.ofNat c.toNat

variable {c : Char} {text : List Char}

/-- The byte of a character of ASCII has the number of the character. -/
theorem toNat_ofNat_toNat (h : c.toNat < 0x80) : (UInt8.ofNat c.toNat).toNat = c.toNat := by
  rw [UInt8.toNat_ofNat']
  omega

/-- Bytes that start like an object with a member come in UTF-8. -/
theorem detect_member (rest : List UInt8) :
    Encoding.detect (0x7B :: 0x22 :: rest) = (.utf8, 0x7B :: 0x22 :: rest) := by
  obtain _ | ⟨c, _ | ⟨d, rest⟩⟩ := rest <;> rfl

/-- A character of ASCII is read back from its byte. -/
theorem decodeUtf8Char?_ascii (h : c.toNat < 0x80) (rest : List UInt8) :
    decodeUtf8Char? (UInt8.ofNat c.toNat :: rest) = some (c.toNat, rest) := by
  have hlead : UInt8.ofNat c.toNat < 0x80 := by
    rw [UInt8.lt_iff_toNat_lt, toNat_ofNat_toNat h]
    exact h
  show (if UInt8.ofNat c.toNat < 0x80 then some ((UInt8.ofNat c.toNat).toNat, rest) else _) = _
  rw [if_pos hlead, toNat_ofNat_toNat h]

/-- The code of a character of ASCII stands for the character. -/
theorem ofCode_toNat (h : c.toNat < 0x80) : CodePoint.ofCode c.toNat = .char c := by
  have hhigh : isHighSurrogate c.toNat = false := by
    simp only [isHighSurrogate, Bool.and_eq_false_iff, decide_eq_false_iff_not]
    omega
  have hlow : isLowSurrogate c.toNat = false := by
    simp only [isLowSurrogate, Bool.and_eq_false_iff, decide_eq_false_iff_not]
    omega
  rw [CodePoint.ofCode, hhigh, hlow, Char.ofNat_toNat]
  rfl

/-- Characters of ASCII are read back from their bytes. -/
theorem decodeUtf8From_ascii (h : ∀ c ∈ text, c.toNat < 0x80) {fuel : Nat}
    (hfuel : text.length ≤ fuel) (out : List CodePoint) :
    decodeUtf8From fuel out (asciiBytes text) = some (out.reverse ++ text.map .char) := by
  induction text generalizing fuel out with
  | nil => cases fuel <;> simp [asciiBytes, decodeUtf8From]
  | cons c text ih =>
      obtain ⟨hc, hothers⟩ := List.forall_mem_cons.mp h
      obtain _ | fuel := fuel
      · cases hfuel
      calc decodeUtf8From (fuel + 1) out (asciiBytes (c :: text))
        _ = decodeUtf8From fuel (.ofCode c.toNat :: out) (asciiBytes text) := by
              simp only [asciiBytes, List.map_cons, decodeUtf8From, decodeUtf8Char?_ascii hc]
        _ = some (out.reverse ++ (c :: text).map .char) := by
              rw [ofCode_toNat hc, ih hothers (Nat.le_of_succ_le_succ hfuel), List.reverse_cons,
                List.append_assoc]
              rfl

end Text

/-! ## Reading a member -/

namespace Document

open Text

variable {key text : List Char} {limits : Limits}

/-- A plain character of a string is read as it is. -/
theorem readStringBody?_cons_plain {c : Char} (h : IsPlain c) (read rest : List CodePoint) :
    readStringBody? none read (.char c :: rest) = readStringBody? none (.char c :: read) rest := by
  have hplain : ¬ (c.toNat < 0x20 ∨ c = '\\') :=
    not_or.mpr ⟨Nat.not_lt.mpr h.printable, h.ne_backslash⟩
  rw [readStringBody?, if_neg hplain]
  · rfl
  -- no other rule for characters applies
  · exact h.ne_quote
  all_goals exact fun _ ↦ by simp [h.ne_backslash]

/-- Plain characters up to a quotation mark are read as they are. -/
theorem readStringBody?_plain (h : ∀ c ∈ text, IsPlain c) (read rest : List CodePoint) :
    readStringBody? none read (text.map .char ++ .char '"' :: rest) =
      some (read.reverse ++ text.map .char, rest) := by
  induction text generalizing read with
  | nil => simp [readStringBody?, settle]
  | cons c text ih =>
      obtain ⟨hc, hothers⟩ := List.forall_mem_cons.mp h
      rw [List.map_cons, List.cons_append, readStringBody?_cons_plain hc, ih hothers,
        List.reverse_cons, List.append_assoc, List.singleton_append]

/-- A plain text between quotation marks is read as a string. -/
theorem readValue_plain (h : ∀ c ∈ text, IsPlain c) (fuel : Nat) (rest : List CodePoint) :
    readValue (fuel + 1) limits (.char '"' :: (text.map .char ++ .char '"' :: rest)) =
      .ok (.string (text.map .char), rest) := by
  simp only [readValue, readString?, readStringBody?_plain h]
  rfl

/-- Where a text starts with no blank, there are none to skip. -/
theorem skipBlanks_cons {p : CodePoint} (h : isBlank p = false) (rest : List CodePoint) :
    skipBlanks (p :: rest) = p :: rest := by
  rw [skipBlanks, List.dropWhile_cons_of_neg (by simp [h])]

/-- The characters of a JSON object with one member, a plain text under a plain key. -/
def memberText (key text : List Char) : List Char :=
  '\x7b' :: '"' :: (key ++ '"' :: ':' :: '"' :: (text ++ ['"', '\x7d']))

/-- A member with a plain key and a plain value is read as it is meant. -/
theorem readMembers_plain (hkey : ∀ c ∈ key, IsPlain c) (htext : ∀ c ∈ text, IsPlain c)
    (fuel : Nat) :
    readMembers (fuel + 2) limits [] (.char '"' :: (key.map .char ++ .char '"' :: .char ':' ::
        .char '"' :: (text.map .char ++ .char '"' :: [.char '\x7d']))) =
      .ok (.object [(key.map .char, .string (text.map .char))], []) := by
  have hcolon : isBlank (.char ':') = false := rfl
  have hquote : isBlank (.char '"') = false := rfl
  have hclosing : isBlank (.char '\x7d') = false := rfl
  simp only [readMembers, readString?, readStringBody?_plain hkey, skipBlanks_cons hcolon,
    skipBlanks_cons hquote, readValue_plain htext, skipBlanks_cons hclosing]
  rfl

/-- An object with one plain member is read as it is meant. -/
theorem readValue_memberText (hkey : ∀ c ∈ key, IsPlain c) (htext : ∀ c ∈ text, IsPlain c)
    (digits depth margin fuel : Nat) :
    readValue (fuel + 3) ⟨digits, depth + 1, margin⟩ ((memberText key text).map .char) =
      .ok (.object [(key.map .char, .string (text.map .char))], []) := by
  have hquote : isBlank (.char '"') = false := rfl
  have hshape : (memberText key text).map CodePoint.char =
      .char '\x7b' :: .char '"' :: (key.map .char ++ .char '"' :: .char ':' :: .char '"' ::
        (text.map .char ++ .char '"' :: [.char '\x7d'])) := by
    simp [memberText]
  rw [hshape, readValue]
  simp only [skipBlanks_cons hquote]
  exact readMembers_plain hkey htext fuel

/-- A text that is such an object is read as it is meant, where objects are allowed at all. -/
theorem read_memberText (hkey : ∀ c ∈ key, IsPlain c) (htext : ∀ c ∈ text, IsPlain c)
    (hdepth : 0 < limits.depth) :
    read limits ((memberText key text).map .char) =
      .ok (.object [(key.map .char, .string (text.map .char))]) := by
  obtain ⟨digits, _ | depth, margin⟩ := limits
  · cases hdepth
  have hopening : isBlank (.char '\x7b') = false := rfl
  have hblanks : skipBlanks ((memberText key text).map .char) = (memberText key text).map .char :=
    skipBlanks_cons hopening _
  -- the fuel for a text of any length is enough for the three calls that this one takes
  obtain ⟨n, hn⟩ : ∃ n, ((memberText key text).map CodePoint.char).length = n + 1 := ⟨_, rfl⟩
  have hfuel : 2 * (n + 1) + 2 = 2 * n + 1 + 3 := by omega
  rw [read, hblanks, hn, hfuel, readValue_memberText hkey htext]
  rfl

/-- All characters of such a text are characters of ASCII. -/
theorem ascii_of_mem_memberText (hkey : ∀ c ∈ key, IsPlain c) (htext : ∀ c ∈ text, IsPlain c) :
    ∀ c ∈ memberText key text, c.toNat < 0x80 := by
  intro c hc
  simp only [memberText, List.mem_cons, List.mem_append, List.not_mem_nil, or_false] at hc
  rcases hc with rfl | rfl | hc | rfl | rfl | rfl | hc | rfl | rfl
  case inr.inr.inl => exact (hkey c hc).ascii
  case inr.inr.inr.inr.inr.inr.inl => exact (htext c hc).ascii
  all_goals decide

/-- Such a text is decoded from its bytes. -/
theorem decodeJsonText?_memberText (hkey : ∀ c ∈ key, IsPlain c) (htext : ∀ c ∈ text, IsPlain c) :
    decodeJsonText? (asciiBytes (memberText key text)) =
      some ((memberText key text).map .char) := by
  have hdetect : Encoding.detect (asciiBytes (memberText key text)) =
      (.utf8, asciiBytes (memberText key text)) := detect_member _
  have hlength : (memberText key text).length ≤ (asciiBytes (memberText key text)).length :=
    Nat.le_of_eq (List.length_map _).symm
  simp only [decodeJsonText?, hdetect, Encoding.decode?]
  exact decodeUtf8From_ascii (ascii_of_mem_memberText hkey htext) hlength []

end Document

/-! ## The request -/

namespace Api

/-- A request to compile a code, with the code as it is in the body. -/
def posting (code : String) : Request :=
  ⟨"POST", "/api/parse",
    Text.asciiBytes (Document.memberText Field.code.key.toList code.toList)⟩

variable {code : String}

/-- The body of the request is read as an object with the code as its only member. -/
theorem readMembers_posting (h : ∀ c ∈ code.toList, IsPlain c) :
    readMembers (posting code).body =
      .ok [(Text.codePoints Field.code.key, .string (Text.codePoints code))] := by
  have hkey : ∀ c ∈ Field.code.key.toList, IsPlain c := by
    have hchars : Field.code.key.toList = ['c', 'o', 'd', 'e'] := rfl
    rw [hchars]
    simp only [List.forall_mem_cons, List.not_mem_nil, false_imp_iff, implies_true, and_true]
    refine ⟨?_, ?_, ?_, ?_⟩ <;> constructor <;> decide
  have hne : (posting code).body.isEmpty = false := rfl
  have hdecode := Document.decodeJsonText?_memberText hkey h
  have hread := Document.read_memberText hkey h (show 0 < bodyLimits.depth by decide)
  rw [readMembers, hne, posting, hdecode]
  simp only [hread]
  rfl

/-- A request that posts a plain code is a request to compile this code. -/
theorem call?_posting (h : ∀ c ∈ code.toList, IsPlain c) :
    (posting code).call? = .ok (.parse code) := by
  have hendpoint : Endpoint.ofPath? "/api/parse" = some .parse := rfl
  have hfield : fieldOf [(Text.codePoints Field.code.key, .string (Text.codePoints code))] .code =
      some (.string (Text.codePoints code)) := by
    simp [fieldOf, JsonOf.lookup]
  have hvalid : (posting code).validate checkCode = .ok code := by
    simp only [Request.validate, readMembers_posting h, checkCode, hfield, checkString,
      Text.shownText_codePoints]
  have hcall : (posting code).call? = ((posting code).validate checkCode).map .parse := by
    simp only [posting, Request.call?, hendpoint]
  rw [hcall, hvalid]
  rfl

/-- Every text of operators can be posted as a code. -/
theorem call?_posting_toText (ops : List Operator) :
    (posting (Operator.toText ops)).call? = .ok (.parse (Operator.toText ops)) := by
  refine call?_posting fun c hc ↦ ?_
  rw [Operator.toText, String.toList_ofList] at hc
  obtain ⟨op, -, rfl⟩ := List.mem_map.mp hc
  exact op.isPlain_char

end Api

end TapeMachine
