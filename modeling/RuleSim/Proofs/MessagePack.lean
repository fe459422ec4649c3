import Mathlib.Data.List.Basic
import RuleSim.MessagePack

namespace RuleSim.Pack

theorem length_bigEndian (count n : Nat) : (bigEndian count n).length = count := by
  induction count generalizing n with
  | zero => rfl
  | succ count ih => rw [bigEndian, List.length_cons, ih]

theorem foldl_bigEndian (count n m : Nat) :
    (bigEndian count n).foldl (fun n b => n * 256 + b.toNat) m =
      m * 256 ^ count + n % 256 ^ count := by
  induction count generalizing m with
  | zero => simp [bigEndian, Nat.mod_one]
  | succ count ih =>
      have hbyte : (n / 256 ^ count).toUInt8.toNat = n / 256 ^ count % 256 := by
        simp [Nat.toUInt8_eq]
      rw [bigEndian, List.foldl_cons, ih, hbyte, Nat.pow_succ, Nat.mod_mul, Nat.add_mul,
        Nat.mul_assoc, Nat.mul_comm 256, Nat.mul_comm (256 ^ count) (_ % 256)]
      omega

theorem readNat_bigEndian (count n : Nat) (h : n < 256 ^ count) (rest : Bytes) :
    readNat count (bigEndian count n ++ rest) = some (n, rest) := by
  have hlen := length_bigEndian count n
  have hn : ofBigEndian (bigEndian count n) = n := by
    rw [ofBigEndian, foldl_bigEndian, Nat.zero_mul, Nat.zero_add, Nat.mod_eq_of_lt h]
  rw [readNat, if_pos (by simp [hlen]), List.take_left' hlen, List.drop_left' hlen, hn]

theorem readInt_bigEndian (count m : Nat) {n : Int} (hm : (m : Int) = n + (256 ^ count : Nat))
    (hlo : -(256 ^ count : Nat) ≤ 2 * n) (hn : n < 0) (rest : Bytes) :
    readInt count (bigEndian count m ++ rest) = some (n, rest) := by
  have hpow : ((256 ^ count : Nat) : Int) = 256 ^ count := Int.natCast_pow 256 count
  have hm' : (m : Int) - 256 ^ count = n := by omega
  rw [readInt, readNat_bigEndian count m (by omega), Option.map_some]
  dsimp only
  rw [if_neg (by omega), hm']

theorem map_readNat {α : Type} (f : Nat × Bytes → α) (count n : Nat) (h : n < 256 ^ count)
    (rest : Bytes) : (readNat count (bigEndian count n ++ rest)).map f = some (f (n, rest)) := by
  rw [readNat_bigEndian count n h, Option.map_some]

theorem map_readInt {α : Type} (f : Int × Bytes → α) (count m : Nat) {n : Int}
    (hm : (m : Int) = n + (256 ^ count : Nat)) (hlo : -(256 ^ count : Nat) ≤ 2 * n) (hn : n < 0)
    (rest : Bytes) : (readInt count (bigEndian count m ++ rest)).map f = some (f (n, rest)) := by
  rw [readInt_bigEndian count m hm hlo hn, Option.map_some]

theorem withLength_bigEndian (f : Nat → Bytes → Option (Head × Bytes)) (count n : Nat)
    (h : n < 256 ^ count) (rest : Bytes) :
    withLength count (bigEndian count n ++ rest) f = f n rest := by
  rw [withLength, readNat_bigEndian count n h, Option.bind_some]

theorem toNat_toUInt8 {n : Nat} (h : n < 256) : n.toUInt8.toNat = n := by
  rw [Nat.toUInt8_eq, UInt8.toNat_ofNat', Nat.mod_eq_of_lt h]

theorem readHead_byte {b : UInt8} {n : Nat} (hb : b.toNat = n) (rest : Bytes) :
    readHead (b :: rest) =
      if n < 0x80 then some (.whole (nat n), rest)
      else if n < 0x90 then some (.entries (n - 0x80), rest)
      else if n < 0xA0 then some (.items (n - 0x90), rest)
      else if n < 0xC0 then readStr (n - 0xA0) rest
      else if 0xE0 ≤ n then some (.whole (int ((n : Int) - 256)), rest)
      else readHead (b :: rest) := by
  subst hb
  rw [readHead]
  split_ifs <;> rfl

theorem readHead_natBytes {n : Nat} (h : n < 2 ^ 64) (rest : Bytes) :
    readHead (natBytes n ++ rest) = some (.whole (nat n), rest) := by
  unfold natBytes
  split_ifs with h0 h1 h2 h3
  · have hb := toNat_toUInt8 (show n < 256 by omega)
    rw [List.cons_append, List.nil_append, readHead_byte hb, if_pos h0]
  · exact map_readNat (fun p => (Head.whole (nat p.1), p.2)) 1 n (by omega) rest
  · exact map_readNat (fun p => (Head.whole (nat p.1), p.2)) 2 n (by omega) rest
  · exact map_readNat (fun p => (Head.whole (nat p.1), p.2)) 4 n (by omega) rest
  · exact map_readNat (fun p => (Head.whole (nat p.1), p.2)) 8 n (by omega) rest

theorem readHead_negativeBytes {n : Int} (hlo : -2 ^ 63 ≤ n) (hn : n < 0) (rest : Bytes) :
    readHead (negativeBytes n ++ rest) = some (.whole (int n), rest) := by
  unfold negativeBytes
  simp only [Int.reducePow, Int.reduceNeg]
  split_ifs with h0 h1 h2 h3
  · have hbytes : bigEndian 1 (n + 256).toNat = [(n + 256).toNat.toUInt8] := by
      simp [bigEndian]
    have hb := toNat_toUInt8 (show (n + 256).toNat < 256 by omega)
    have hle : 0xE0 ≤ (n + 256).toNat := by omega
    have hback : ((n + 256).toNat : Int) - 256 = n := by omega
    rw [hbytes, List.cons_append, List.nil_append, readHead_byte hb, if_neg (by omega),
      if_neg (by omega), if_neg (by omega), if_neg (by omega), if_pos hle, hback]
  · exact map_readInt (fun p => (Head.whole (int p.1), p.2)) 1 (n + 256).toNat (by omega) (by omega)
      hn rest
  · exact map_readInt (fun p => (Head.whole (int p.1), p.2)) 2 (n + 65536).toNat (by omega) (by omega)
      hn rest
  · exact map_readInt (fun p => (Head.whole (int p.1), p.2)) 4 (n + 4294967296).toNat (by omega) (by omega)
      hn rest
  · exact map_readInt (fun p => (Head.whole (int p.1), p.2)) 8 (n + 18446744073709551616).toNat (by omega) (by omega)
      hn rest

theorem toList_loop (b : ByteArray) (i : Nat) (acc : Bytes) :
    ByteArray.toList.loop b i acc = acc.reverse ++ b.data.toList.drop i := by
  induction hk : b.size - i generalizing i acc with
  | zero =>
      have hle : b.data.toList.length ≤ i := by
        rw [Array.length_toList]
        exact Nat.sub_eq_zero_iff_le.mp hk
      rw [ByteArray.toList.loop, if_neg (by omega), List.drop_eq_nil_of_le hle, List.append_nil]
  | succ k ih =>
      have hlt : i < b.size := by omega
      have hget : b.data.toList.drop i = b.get! i :: b.data.toList.drop (i + 1) := by
        rw [List.drop_eq_getElem_cons (by simpa using hlt)]
        congr 1
        exact (getElem!_pos b.data i hlt).symm
      rw [ByteArray.toList.loop, if_pos hlt, ih _ _ (by omega), hget, List.reverse_cons,
        List.append_assoc]
      rfl

theorem toList_eq (b : ByteArray) : b.toList = b.data.toList := by
  rw [ByteArray.toList, toList_loop]
  rfl

theorem readStr_toUTF8 (s : String) (rest : Bytes) :
    readStr s.toUTF8.toList.length (s.toUTF8.toList ++ rest) = some (.whole (str s), rest) := by
  have hutf8 : String.fromUTF8? ⟨s.toUTF8.toList.toArray⟩ = some s := by
    rw [toList_eq, Array.toArray_toList]
    exact dif_pos s.isValidUTF8
  rw [readStr, readData, if_pos (by simp)]
  simp only [List.take_left, List.drop_left, Option.bind_eq_bind, Option.bind_some, hutf8]
  rfl

theorem readHead_strBytes {s : String} (h : s.utf8ByteSize < 2 ^ 32) (rest : Bytes) :
    readHead (strBytes s.toUTF8.toList ++ rest) = some (.whole (str s), rest) := by
  have hlen : s.toUTF8.toList.length = s.utf8ByteSize := by
    rw [toList_eq]
    rfl
  have hread := readStr_toUTF8 s rest
  generalize s.toUTF8.toList = data at hlen hread
  rw [← hlen] at h
  unfold strBytes
  dsimp only
  rw [List.append_assoc]
  split_ifs with h0 h1 h2
  · have hb := toNat_toUInt8 (show 0xA0 + data.length < 256 by omega)
    rw [List.cons_append, List.nil_append, readHead_byte hb, if_neg (by omega), if_neg (by omega),
      if_neg (by omega), if_pos (by omega), Nat.add_sub_cancel_left, hread]
  · exact (withLength_bigEndian readStr 1 _ (by omega) _).trans hread
  · exact (withLength_bigEndian readStr 2 _ (by omega) _).trans hread
  · exact (withLength_bigEndian readStr 4 _ (by omega) _).trans hread

theorem readHead_arrHeader {n : Nat} (h : n < 2 ^ 32) (rest : Bytes) :
    readHead (arrHeader n ++ rest) = some (.items n, rest) := by
  unfold arrHeader
  split_ifs with h0 h1
  · have hb := toNat_toUInt8 (show 0x90 + n < 256 by omega)
    rw [List.cons_append, List.nil_append, readHead_byte hb, if_neg (by omega), if_neg (by omega),
      if_pos (by omega), Nat.add_sub_cancel_left]
  · exact map_readNat (fun p => (Head.items p.1, p.2)) 2 n (by omega) rest
  · exact map_readNat (fun p => (Head.items p.1, p.2)) 4 n (by omega) rest

theorem readHead_mapHeader {n : Nat} (h : n < 2 ^ 32) (rest : Bytes) :
    readHead (mapHeader n ++ rest) = some (.entries n, rest) := by
  unfold mapHeader
  split_ifs with h0 h1
  · have hb := toNat_toUInt8 (show 0x80 + n < 256 by omega)
    rw [List.cons_append, List.nil_append, readHead_byte hb, if_neg (by omega),
      if_pos (by omega), Nat.add_sub_cancel_left]
  · exact map_readNat (fun p => (Head.entries p.1, p.2)) 2 n (by omega) rest
  · exact map_readNat (fun p => (Head.entries p.1, p.2)) 4 n (by omega) rest

theorem readHead_float (x : Binary64) (rest : Bytes) :
    readHead (0xCB :: bigEndian 8 x.bits.toNat ++ rest) = some (.whole (float x), rest) := by
  have hread := map_readNat (fun p => (Head.whole (float ⟨p.1.toUInt64⟩), p.2)) 8 x.bits.toNat
    x.bits.toNat_lt rest
  rw [Nat.toUInt64_eq, UInt64.ofNat_toNat] at hread
  exact hread

mutual

def depth : Pack → Nat
  | arr items => depthItems items + 1
  | map entries => depthEntries entries + 1
  | ext .. => 1
  | _ => 0

def depthItems : List Pack → Nat
  | [] => 0
  | v :: vs => max (depth v) (depthItems vs)

def depthEntries : List (Pack × Pack) → Nat
  | [] => 0
  | (k, v) :: rest => max (max (depth k) (depth v)) (depthEntries rest)

end

mutual

/-- Lengths fit 32 bits and numbers 64 bits, a sign is there only if it is needed, and all data is
text. -/
def Sized : Pack → Prop
  | nil | bool _ | float _ => True
  | nat n => n < 2 ^ 64
  | int n => -2 ^ 63 ≤ n ∧ n < 0
  | str s => s.utf8ByteSize < 2 ^ 32
  | raw _ | bin _ | ext .. => False
  | arr items => items.length < 2 ^ 32 ∧ SizedItems items
  | map entries => entries.length < 2 ^ 32 ∧ SizedEntries entries

def SizedItems : List Pack → Prop
  | [] => True
  | v :: vs => Sized v ∧ SizedItems vs

def SizedEntries : List (Pack × Pack) → Prop
  | [] => True
  | (k, v) :: rest => Sized k ∧ Sized v ∧ SizedEntries rest

end

theorem length_toBytes_pos (p : Pack) : 0 < p.toBytes.length := by
  cases p with
  | nil | bool | float | ext => simp [toBytes, extBytes]
  | nat n =>
      unfold toBytes natBytes
      split_ifs <;> simp
  | int n =>
      unfold toBytes intBytes natBytes negativeBytes
      dsimp only
      split_ifs <;> simp [length_bigEndian]
  | str | raw =>
      unfold toBytes strBytes
      dsimp only
      split_ifs <;> simp
  | bin data =>
      unfold toBytes binBytes
      dsimp only
      split_ifs <;> simp
  | arr items =>
      unfold toBytes arrHeader
      split_ifs <;> simp
  | map entries =>
      unfold toBytes mapHeader
      split_ifs <;> simp

theorem read_whole {bytes rest : Bytes} {v : Pack} (h : readHead bytes = some (.whole v, rest))
    (hv : v.depth = 0) (d fuel : Nat) : read d (fuel + 1) bytes = some (v, rest) := by
  rw [read, h]
  cases v with
  | ext => cases hv
  | _ => rfl

mutual

theorem read_toBytes (p : Pack) (h : p.Sized) (d fuel : Nat) (rest : Bytes)
    (hf : 3 * p.toBytes.length ≤ fuel) :
    read d fuel (p.toBytes ++ rest) = if p.depth ≤ d then some (p, rest) else none := by
  have hpos := p.length_toBytes_pos
  obtain ⟨fuel, rfl⟩ : ∃ f, fuel = f + 1 := ⟨fuel - 1, by omega⟩
  cases p with
  | nil => exact read_whole rfl rfl ..
  | bool b => cases b <;> exact read_whole rfl rfl ..
  | nat n => exact read_whole (readHead_natBytes h rest) rfl ..
  | int n =>
      have hb : intBytes n = negativeBytes n := if_neg (Int.not_le.mpr h.2)
      refine read_whole ?_ rfl d fuel
      rw [toBytes, hb]
      exact readHead_negativeBytes h.1 h.2 rest
  | float x => exact read_whole (readHead_float x rest) rfl ..
  | str s => exact read_whole (readHead_strBytes h rest) rfl ..
  | raw | bin | ext => exact h.elim
  | arr items =>
      rw [toBytes, List.length_append] at hf
      have hhead : 0 < (arrHeader items.length).length := by
        unfold arrHeader
        split_ifs <;> simp
      have hitems := readItems_toBytes items h.2 (d - 1) fuel rest (by omega)
      rw [toBytes, List.append_assoc, read, readHead_arrHeader h.1]
      dsimp only
      rw [hitems, depth]
      split_ifs <;> first | omega | rfl
  | map entries =>
      rw [toBytes, List.length_append] at hf
      have hhead : 0 < (mapHeader entries.length).length := by
        unfold mapHeader
        split_ifs <;> simp
      have hentries := readEntries_toBytes entries h.2 (d - 1) fuel rest (by omega)
      rw [toBytes, List.append_assoc, read, readHead_mapHeader h.1]
      dsimp only
      rw [hentries, depth]
      split_ifs <;> first | omega | rfl

theorem readItems_toBytes (vs : List Pack) (h : SizedItems vs) (d fuel : Nat) (rest : Bytes)
    (hf : 3 * (itemsToBytes vs).length + 1 ≤ fuel) :
    readItems d vs.length fuel (itemsToBytes vs ++ rest) =
      if depthItems vs ≤ d then some (vs, rest) else none := by
  obtain ⟨fuel, rfl⟩ : ∃ f, fuel = f + 1 := ⟨fuel - 1, by omega⟩
  cases vs with
  | nil => simp [readItems, depthItems, itemsToBytes]
  | cons v vs =>
      have hpos := v.length_toBytes_pos
      rw [itemsToBytes, List.length_append] at hf
      have hv := read_toBytes v h.1 d fuel (itemsToBytes vs ++ rest) (by omega)
      have hvs := readItems_toBytes vs h.2 d fuel rest (by omega)
      rw [itemsToBytes, List.append_assoc, List.length_cons, readItems,
        if_neg (Nat.succ_ne_zero _), hv, depthItems]
      simp only [Nat.max_le]
      by_cases hd : v.depth ≤ d
      · by_cases hds : depthItems vs ≤ d
        · simp [hvs, hd, hds]
        · simp [hvs, hd, hds]
      · simp [hd]

theorem readEntries_toBytes (es : List (Pack × Pack)) (h : SizedEntries es) (d fuel : Nat)
    (rest : Bytes) (hf : 3 * (entriesToBytes es).length + 1 ≤ fuel) :
    readEntries d es.length fuel (entriesToBytes es ++ rest) =
      if depthEntries es ≤ d then some (es, rest) else none := by
  obtain ⟨fuel, rfl⟩ : ∃ f, fuel = f + 1 := ⟨fuel - 1, by omega⟩
  cases es with
  | nil => simp [readEntries, depthEntries, entriesToBytes]
  | cons e es =>
      obtain ⟨k, v⟩ := e
      have hpos := k.length_toBytes_pos
      rw [entriesToBytes, List.length_append, List.length_append] at hf
      have hk := read_toBytes k h.1 d fuel (v.toBytes ++ (entriesToBytes es ++ rest)) (by omega)
      have hv := read_toBytes v h.2.1 d fuel (entriesToBytes es ++ rest) (by omega)
      have hes := readEntries_toBytes es h.2.2 d fuel rest (by omega)
      rw [entriesToBytes, List.append_assoc, List.append_assoc, List.length_cons, readEntries,
        if_neg (Nat.succ_ne_zero _), hk, depthEntries]
      simp only [Nat.max_le]
      by_cases hdk : k.depth ≤ d
      · by_cases hdv : v.depth ≤ d
        · by_cases hds : depthEntries es ≤ d
          · simp [hv, hes, hdk, hdv, hds]
          · simp [hv, hes, hdk, hdv, hds]
        · simp [hv, hdk, hdv]
      · simp [hdk]

end

/-- What is written is read back, unless it is nested too deep. -/
theorem ofBytes?_toBytes {p : Pack} (h : p.Sized) :
    ofBytes? p.toBytes = if p.depth ≤ maxDepth then some p else none := by
  have hread := read_toBytes p h maxDepth (3 * p.toBytes.length + 3) [] (by omega)
  rw [List.append_nil] at hread
  rw [ofBytes?, hread]
  split_ifs <;> rfl

end RuleSim.Pack
