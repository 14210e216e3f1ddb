import SigmaCatalog.Rest.Path.Decoding

/-!
# Reading names back

The octets of a name are spelled one by one, so a segment stands for the name that it was made of,
without its tabs and line breaks.  No segment holds a slash, so a path is read as it was put
together.
-/

namespace SigmaCatalog.Rest

/-! ## Octets of a text -/

theorem toList_loop_eq_append (bytes : ByteArray) (i : Nat) (done : List UInt8) :
    ByteArray.toList.loop bytes i done = done.reverse ++ bytes.data.toList.drop i := by
  fun_induction ByteArray.toList.loop bytes i done with
  | case1 i done h ih =>
    have hlt : i < bytes.data.toList.length := h
    have hget : bytes.get! i = bytes.data.toList[i] := by
      change bytes.data[i]! = _
      rw [getElem!_pos bytes.data i h, Array.getElem_toList]
    rw [ih, List.drop_eq_getElem_cons hlt, hget, List.reverse_cons, List.append_assoc,
      List.singleton_append]
  | case2 i done h =>
    have hle : bytes.data.toList.length ≤ i := Nat.le_of_not_lt h
    rw [List.drop_eq_nil_of_le hle, List.append_nil]

theorem toList_eq_data (bytes : ByteArray) : bytes.toList = bytes.data.toList :=
  toList_loop_eq_append bytes 0 []

theorem octets_append (first second : String) :
    (first ++ second).toUTF8.toList = first.toUTF8.toList ++ second.toUTF8.toList := by
  rw [toList_eq_data, toList_eq_data, toList_eq_data]
  change (first ++ second).toByteArray.data.toList = _
  rw [String.toByteArray_append, ByteArray.toList_data_append]
  rfl

theorem toByteArray_octets (text : String) : text.toUTF8.toList.toByteArray = text.toUTF8 := by
  rw [toList_eq_data]
  apply ByteArray.ext
  apply Array.toList_inj.mp
  rw [List.toList_data_toByteArray]

/-! ## Octets that a segment spells -/

theorem digit?_hexDigit {n : Nat} (h : n < 16) : Host.digit? 16 (hexDigit n) = some n := by
  have hall : ∀ n < 16, Host.digit? 16 (hexDigit n) = some n := by decide
  exact hall n h

theorem hexDigit_ne_slash {n : Nat} (h : n < 16) : '/' ≠ hexDigit n := by
  have hall : ∀ n < 16, '/' ≠ hexDigit n := by decide
  exact hall n h

theorem segmentOctets_percentOctet (octet : UInt8) (rest : List Char) :
    segmentOctets (percentOctet octet ++ rest) = octet :: segmentOctets rest := by
  have hlt : octet.toNat < 256 := octet.toNat_lt
  have hhigh : octet.toNat / 16 < 16 := by omega
  have hlow : octet.toNat % 16 < 16 := by omega
  have hvalue : octet.toNat / 16 * 16 + octet.toNat % 16 = octet.toNat := by omega
  change segmentOctets ('%' :: hexDigit _ :: hexDigit _ :: rest) = _
  rw [segmentOctets, digit?_hexDigit hhigh, digit?_hexDigit hlow]
  simp only [hvalue, UInt8.ofNat_toNat]

theorem segmentOctets_percentOctets (octets : List UInt8) (rest : List Char) :
    segmentOctets (octets.flatMap percentOctet ++ rest) = octets ++ segmentOctets rest := by
  induction octets with
  | nil => rfl
  | cons octet octets ih =>
    rw [List.flatMap_cons, List.append_assoc, segmentOctets_percentOctet, ih, List.cons_append]

theorem segmentOctets_cons {c : Char} (h : c ≠ '%') (rest : List Char) :
    segmentOctets (c :: rest) = (String.singleton c).toUTF8.toList ++ segmentOctets rest := by
  rw [segmentOctets]
  intro high low others heq
  exact absurd heq h

theorem segmentOctets_escapeChar (c : Char) (rest : List Char) :
    segmentOctets (escapeChar segmentEscapes c ++ rest) =
      (String.singleton c).toUTF8.toList ++ segmentOctets rest := by
  rw [escapeChar]
  split
  · next hplain =>
    have hescape : segmentEscapes.contains c = false := by simp_all
    have hpercent : c ≠ '%' := by
      rintro rfl
      cases hescape
    exact segmentOctets_cons hpercent rest
  · exact segmentOctets_percentOctets _ rest

/-! ## Names -/

theorem segmentOctets_escapeChars (chars : List Char) :
    segmentOctets (chars.flatMap (escapeChar segmentEscapes)) =
      (String.ofList chars).toUTF8.toList := by
  induction chars with
  | nil =>
    rw [toList_eq_data]
    rfl
  | cons c chars ih =>
    have hcons : String.ofList (c :: chars) = String.singleton c ++ String.ofList chars := by
      apply String.toList_injective
      simp
    rw [List.flatMap_cons, segmentOctets_escapeChar, ih, hcons, octets_append]

/-- A segment stands for the characters of its name that it keeps. -/
theorem segmentName?_segmentText (name : String) :
    segmentName? (segmentText name) = some (String.ofList (kept name)) := by
  rw [segmentName?, segmentText, String.toList_ofList, segmentOctets_escapeChars,
    toByteArray_octets]
  exact dif_pos (String.ofList (kept name)).isValidUTF8

theorem kept_eq_toList_iff (name : String) :
    kept name = name.toList ↔ name.toList.any isBreak = false := by
  rw [kept, List.filter_eq_self, List.any_eq_false]
  simp only [Bool.not_eq_true', Bool.not_eq_true]

theorem slash_notMem_escapeChar (c : Char) : '/' ∉ escapeChar segmentEscapes c := by
  rw [escapeChar]
  split
  · next hplain =>
    have hescape : segmentEscapes.contains c = false := by simp_all
    intro hmem
    obtain rfl := List.mem_singleton.mp hmem
    cases hescape
  · intro hmem
    obtain ⟨octet, -, hoctet⟩ := List.mem_flatMap.mp hmem
    have hlt : octet.toNat < 256 := octet.toNat_lt
    have hhigh : '/' ≠ hexDigit (octet.toNat / 16) := hexDigit_ne_slash (by omega)
    have hlow : '/' ≠ hexDigit (octet.toNat % 16) := hexDigit_ne_slash (by omega)
    simp [percentOctet, hhigh, hlow] at hoctet

theorem slash_notMem_segmentText (name : String) : '/' ∉ (segmentText name).toList := by
  rw [segmentText, String.toList_ofList]
  intro hmem
  obtain ⟨c, -, hc⟩ := List.mem_flatMap.mp hmem
  exact slash_notMem_escapeChar c hc

end SigmaCatalog.Rest
