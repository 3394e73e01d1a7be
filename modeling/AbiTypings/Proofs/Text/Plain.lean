import AbiTypings.Json.Reader
import AbiTypings.Text.Newline
import AbiTypings.Text.Utf8
import Mathlib.Tactic.SplitIfs

/-!
# Plain characters

Printable ASCII is one byte for each character and ends no line, so a file of it reads as it
stands; and without quotes and backslashes it stands for itself between the quotes of a JSON
text.
-/

namespace AbiTypings

/-- Printable ASCII. -/
def isPlain (c : Char) : Bool := decide (0x20 ≤ c.toNat) && decide (c.toNat < 0x80)

/-- Printable ASCII that stands for itself in a quoted text. -/
def isQuotable (c : Char) : Bool := isPlain c && c != '\x22' && c != '\\'

theorem isPlain_of_isQuotable {c : Char} (h : isQuotable c = true) : isPlain c = true :=
  (Bool.and_eq_true_iff.mp (Bool.and_eq_true_iff.mp h).1).1

variable {cs : List Char}

/-! ## Bytes -/

/-- The bytes of ASCII characters. -/
def asciiBytes (cs : List Char) : ByteArray :=
  ⟨(cs.map fun c ↦ UInt8.ofNat c.toNat).toArray⟩

theorem toList_loop_eq (bytes : ByteArray) (i : Nat) (done : List UInt8) :
    ByteArray.toList.loop bytes i done = done.reverse ++ bytes.data.toList.drop i := by
  fun_induction ByteArray.toList.loop bytes i done with
  | case1 i done hi ih =>
      have hi : i < bytes.data.toList.length := hi
      have hget : bytes.get! i = bytes.data.toList[i] := getElem!_pos bytes.data i hi
      rw [ih, List.drop_eq_getElem_cons hi, hget]
      simp
  | case2 i done hi =>
      have hi : bytes.data.toList.length ≤ i := Nat.le_of_not_lt hi
      simp [List.drop_eq_nil_of_le hi]

theorem toList_asciiBytes (cs : List Char) :
    (asciiBytes cs).toList = cs.map fun c ↦ UInt8.ofNat c.toNat := by
  rw [ByteArray.toList, toList_loop_eq]
  simp [asciiBytes]

theorem decodeOnto_asciiBytes (h : cs.all isPlain = true) (done : List Char) (position : Nat) :
    Text.Utf8.decodeOnto done position none (cs.map fun c ↦ UInt8.ofNat c.toNat) =
      .ok (done.reverse ++ cs) := by
  induction cs generalizing done position with
  | nil => simp [Text.Utf8.decodeOnto]
  | cons c rest ih =>
      obtain ⟨hplain, hrest⟩ := Bool.and_eq_true_iff.mp (List.all_cons ▸ h)
      have hc : c.toNat < 0x80 := of_decide_eq_true (Bool.and_eq_true_iff.mp hplain).2
      have hbyte : (UInt8.ofNat c.toNat).toNat = c.toNat :=
        UInt8.toNat_ofNat_of_lt' (by simp [UInt8.size]; omega)
      rw [List.map_cons, Text.Utf8.decodeOnto, hbyte, if_pos hc, Char.ofNat_toNat,
        ih hrest]
      simp

theorem decode_asciiBytes (h : cs.all isPlain = true) :
    Text.Utf8.decode (asciiBytes cs).toList = .ok cs := by
  rw [toList_asciiBytes, Text.Utf8.decode, decodeOnto_asciiBytes h]
  simp

theorem unifyNewlinesOnto_of_not_mem (h : '\r' ∉ cs) (done : List Char) :
    Text.unifyNewlinesOnto done cs = done.reverse ++ cs := by
  fun_induction Text.unifyNewlinesOnto done cs with
  | case1 => simp
  | case2 => simp at h
  | case3 => simp at h
  | case4 done c rest _ _ ih =>
      rw [ih fun hmem ↦ h (List.mem_cons_of_mem _ hmem)]
      simp

theorem unifyNewlines_of_plain (h : cs.all isPlain = true) : Text.unifyNewlines cs = cs := by
  rw [Text.unifyNewlines, unifyNewlinesOnto_of_not_mem]
  · rfl
  · intro hmem
    exact absurd (List.all_eq_true.mp h _ hmem) (by decide)

/-! ## Quoted text -/

theorem readPieces_plain (h : cs.all isQuotable = true)
    (opening rest : List Char) (done : List Json.Piece) :
    Json.readPieces opening done (cs ++ '\x22' :: rest) =
      .ok (done.reverse ++ cs.map .char, rest) := by
  induction cs generalizing done with
  | nil => simp [Json.readPieces]
  | cons c cs ih =>
      obtain ⟨hc, hrest⟩ := Bool.and_eq_true_iff.mp (List.all_cons ▸ h)
      have hcontrol : ¬ c.toNat < 0x20 := by
        have hplain := isPlain_of_isQuotable hc
        simpa using (Bool.and_eq_true_iff.mp hplain).1
      have hquote : c ≠ '\x22' := by
        rintro rfl
        exact absurd hc (by decide)
      have hbackslash : c ≠ '\\' := by
        rintro rfl
        exact absurd hc (by decide)
      rw [List.cons_append, Json.readPieces]
      · rw [if_neg hcontrol, ih hrest]
        simp
      all_goals simp_all

theorem joinHalves_map_char (cs : List Char) : Json.joinHalves (cs.map .char) = cs := by
  induction cs with
  | nil => simp [Json.joinHalves]
  | cons c rest ih => simp [Json.joinHalves, ih]

theorem readText_plain (h : cs.all isQuotable = true) (rest : List Char) :
    Json.readText (cs ++ '\x22' :: rest) = .ok (String.ofList cs, rest) := by
  rw [Json.readText, readPieces_plain h, List.reverse_nil, List.nil_append]
  simp [bind, Except.bind, pure, Except.pure, joinHalves_map_char]

end AbiTypings
