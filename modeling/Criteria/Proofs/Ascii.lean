import Criteria.Document
import Mathlib.Data.List.Basic

namespace Criteria
variable {cs : List Char}

def IsAscii (cs : List Char) : Prop := ∀ c ∈ cs, c.toNat < 0x80

instance (cs : List Char) : Decidable (IsAscii cs) := List.decidableBAll (fun c : Char => c.toNat < 0x80) cs

def asciiBytes (cs : List Char) : List UInt8 := cs.map fun c => UInt8.ofNat c.toNat

@[simp] theorem asciiBytes_cons (c : Char) (cs : List Char) :
    asciiBytes (c :: cs) = UInt8.ofNat c.toNat :: asciiBytes cs := rfl

@[simp] theorem asciiBytes_append (cs ds : List Char) : asciiBytes (cs ++ ds) = asciiBytes cs ++ asciiBytes ds :=
  List.map_append

theorem toNat_asciiByte {c : Char} (h : c.toNat < 0x80) : (UInt8.ofNat c.toNat).toNat = c.toNat := by
  rw [UInt8.toNat_ofNat']
  omega

theorem toList_loop (bs : ByteArray) (i : ℕ) (acc : List UInt8) :
    ByteArray.toList.loop bs i acc = acc.reverse ++ bs.data.toList.drop i := by
  induction i, acc using ByteArray.toList.loop.induct bs with
  | case1 i acc hi ih =>
    have hlength : i < bs.data.toList.length := hi
    have hget : bs.get! i = bs.data.toList[i] := getElem!_pos bs.data i hi
    rw [ByteArray.toList.loop, if_pos hi, ih, List.drop_eq_getElem_cons hlength, hget, List.reverse_cons,
      List.append_assoc]
    rfl
  | case2 i acc hi =>
    rw [ByteArray.toList.loop, if_neg hi, List.drop_eq_nil_of_le (Nat.le_of_not_lt hi), List.append_nil]

theorem toUTF8_ascii (h : IsAscii cs) : (String.ofList cs).toUTF8.toList = asciiBytes cs := by
  have hdata : cs.utf8Encode.data.toList = asciiBytes cs := by
    induction cs with
    | nil => rfl
    | cons c cs ih =>
      have hc := h c List.mem_cons_self
      have hsize : c.utf8Size = 1 := by
        have : c.val ≤ 0x7f := by
          rw [UInt32.le_iff_toNat_le]
          exact Nat.le_of_lt_succ hc
        exact if_pos this
      rw [List.utf8Encode_cons, List.utf8Encode_singleton, String.utf8EncodeChar_eq_singleton hsize,
        ByteArray.data_append, Array.toList_append, ih fun d hd => h d (List.mem_cons_of_mem _ hd)]
      rfl
  rw [String.toUTF8_eq_toByteArray, String.toByteArray_ofList, ByteArray.toList, toList_loop, hdata]
  rfl

theorem decodeUtf8_ascii (h : IsAscii cs) : Text.decodeUtf8 (asciiBytes cs) = .ok cs := by
  have hfrom (pos : ℕ) : Text.decodeUtf8From pos none (asciiBytes cs) = .ok cs := by
    induction cs generalizing pos with
    | nil => rfl
    | cons c cs ih =>
      have hc := h c List.mem_cons_self
      have hlt : UInt8.ofNat c.toNat < 0x80 := by
        rw [UInt8.lt_iff_toNat_lt, toNat_asciiByte hc]
        exact hc
      rw [asciiBytes, List.map_cons, Text.decodeUtf8From]
      simp only [hlt, if_true, toNat_asciiByte hc, Char.ofNat_toNat]
      rw [← asciiBytes, ih fun d hd => h d (List.mem_cons_of_mem _ hd)]
      rfl
  exact hfrom 0

theorem unifyLineEnds_eq_self (h : '\r' ∉ cs) : unifyLineEnds cs = cs := by
  induction cs with
  | nil => rfl
  | cons c cs ih =>
    have hc : c ≠ '\r' := fun hc => h (hc ▸ List.mem_cons_self)
    have hcs : '\r' ∉ cs := fun hm => h (List.mem_cons_of_mem _ hm)
    rw [unifyLineEnds, ih hcs, if_neg hc]
    exact fun ds hd => absurd hd hc

end Criteria
