/-
# Addresses are read as they are written

The other half of what `Printing` says: `str(address)` and `str(network)` leave zeros
out and put a scope id behind a percent sign, and `ip_address` and `ip_network` read from
that the address or the network again. The text of an address is split where it was
joined, its digits are read back, and the zeros are put where the empty part stands
(`hextetsOf_compressHextets`). Only a scope id with a percent sign or a slash in it
cannot be read, and no text that was read has one.

Key definition: `IPAddress.Readable`.
Key theorems: `ipv4Int_str`, `ipv6Int_str`, `ipAddress_str`, `ipNetwork_str`, `read_str_iff`.
-/
import Mathlib.Data.List.Nodup
import ScanLedger.Printing

namespace ScanLedger

/-! ### Digits that are read -/

section

variable {b n : ℕ}

/-- Only the digits of zero start with a zero. -/
theorem head_toDigits (hb : 1 < b) (hb' : b ≤ 16) (n : ℕ) (hn : n ≠ 0) :
    (Nat.toDigits b n).head? ≠ some '0' := by
  induction n using Nat.strongRecOn with
  | ind n ih =>
    rw [Nat.toDigits_eq_if hb]
    split_ifs with hlt
    · intro he
      have hchar : digitValue (Nat.digitChar n) = 0 := by
        rw [Option.some.inj he]
        rfl
      exact hn ((digitValue_digitChar n (by omega)).symm.trans hchar)
    · have hdiv : n / b ≠ 0 := (Nat.div_pos (by omega) (by omega)).ne'
      rw [List.head?_append_of_ne_nil _ Nat.toDigits_ne_nil]
      exact ih _ (Nat.div_lt_self (by omega) hb) hdiv

theorem isDigit_of_mem_toDigits (n : ℕ) : ∀ c ∈ Nat.toDigits 10 n, c.isDigit = true :=
  fun _ hc => Nat.isDigit_of_mem_toDigits (by norm_num) (by norm_num) hc

theorem asciiDigits_toDigits (n : ℕ) : asciiDigits (Nat.toDigits 10 n) = true := by
  have hne : (Nat.toDigits 10 n).isEmpty = false := by
    rw [List.isEmpty_eq_false_iff]
    exact Nat.toDigits_ne_nil
  unfold asciiDigits
  rw [hne, List.all_eq_true.mpr (isDigit_of_mem_toDigits n)]
  rfl

/-- The lower digits make up the number below `b ^ k`. -/
theorem ofDigits_range (b n : ℕ) : ∀ k,
    Nat.ofDigits b ((List.range k).map fun i => n / b ^ i % b) = n % b ^ k
  | 0 => by simp [Nat.mod_one]
  | k + 1 => by
    rw [List.range_succ, List.map_append, Nat.ofDigits_append, ofDigits_range b n k,
      List.length_map, List.length_range, Nat.mod_pow_succ]
    simp

theorem parseOctet_toDigits {n : ℕ} (hn : n < 256) :
    parseOctet (Nat.toDigits 10 n) = some ⟨n, hn⟩ := by
  have hlength := Nat.toDigits_length 10 n 3 (by norm_num) (by omega)
  have hread := readInt_toDigits (b := 10) (by norm_num) (by norm_num) n
  have hzero : ¬ (Nat.toDigits 10 n ≠ ['0'] ∧ (Nat.toDigits 10 n).head? = some '0') := by
    rintro ⟨hne, hhead⟩
    by_cases h0 : n = 0
    · exact hne (by rw [h0]; rfl)
    · exact head_toDigits (by norm_num) (by norm_num) n h0 hhead
  unfold parseOctet
  rw [if_neg (not_or.mpr ⟨not_not.mpr (asciiDigits_toDigits n),
    not_or.mpr ⟨not_lt.mpr hlength, hzero⟩⟩), dif_pos (hread.symm ▸ hn)]
  exact congrArg some (Fin.ext hread)

theorem parseHextet_toDigits {n : ℕ} (hn : n < 65536) :
    parseHextet (Nat.toDigits 16 n) = some ⟨n, hn⟩ := by
  have hlength := Nat.toDigits_length 16 n 4 (by norm_num) (by omega)
  have hread := readInt_toDigits (b := 16) (by norm_num) (by norm_num) n
  have hall : (Nat.toDigits 16 n).all isHexDigit = true :=
    List.all_eq_true.mpr (isHexDigit_of_mem_toDigits (by norm_num) le_rfl n)
  have hne : (Nat.toDigits 16 n).isEmpty = false := by
    rw [List.isEmpty_eq_false_iff]
    exact Nat.toDigits_ne_nil
  unfold parseHextet
  rw [if_neg (by simpa [hne, hall] using hlength), hread]
  exact congrArg some (Fin.ext (Nat.mod_eq_of_lt hn))

/-- A number is made of its groups. -/
theorem ofGroups_groupsOf {b n k : ℕ} (hn : n < (b + 1) ^ k) {groups : List (Fin (b + 1))}
    (hgroups : groups.map Fin.val = groupsOf (b + 1) n k) : ofGroups groups = n := by
  unfold ofGroups
  rw [hgroups, groupsOf, ← List.map_reverse, List.reverse_reverse, ofDigits_range,
    Nat.mod_eq_of_lt hn]

/-! ### IPv4 -/

/-- Texts joined with a separator that they do not have, taken apart. -/
theorem splitOn_intercalate_texts {sep : String} {c : Char} {texts : List String}
    (hsep : sep.toList = [c]) (hne : texts ≠ []) (h : ∀ text ∈ texts, c ∉ text.toList) :
    (sep.intercalate texts).toList.splitOn c = texts.map String.toList := by
  rw [String.toList_intercalate, hsep]
  refine List.splitOn_intercalate c ?_ (List.map_eq_nil_iff.not.mpr hne)
  intro l hl
  obtain ⟨text, htext, rfl⟩ := List.mem_map.mp hl
  exact h text htext

theorem splitOn_str_v4 (n : ℕ) : (stringFromIpInt .v4 n).toList.splitOn '.' =
    (groupsOf 256 n 4).map (Nat.toDigits 10) := by
  rw [stringFromIpInt_v4, splitOn_intercalate_texts (by rfl) (by simp [groupsOf, List.range_succ])
    fun text htext hc => ?_, List.map_map]
  · refine List.map_congr_left fun d _ => ?_
    rw [Function.comp_apply, Nat.toString_eq_ofList_toDigits, String.toList_ofList]
  · obtain ⟨d, -, rfl⟩ := List.mem_map.mp htext
    exact absurd (isHexDigit_of_mem_toString hc) (by decide)

/-- An IPv4 address is read back. -/
theorem ipv4Int_str {n : ℕ} (hn : n < 2 ^ 32) :
    ipv4Int (stringFromIpInt .v4 n).toList = some ⟨n, hn⟩ := by
  have hdigit : ∀ i, n / 256 ^ i % 256 < 256 := fun i => Nat.mod_lt _ (by norm_num)
  unfold ipv4Int
  rw [splitOn_str_v4]
  simp only [groupsOf, List.range_succ, List.range_zero, List.nil_append, List.reverse_append,
    List.reverse_cons, List.reverse_nil, List.singleton_append, List.map_cons, List.map_nil,
    parseOctet_toDigits (hdigit _), Option.bind_eq_bind, Option.bind_some, Option.pure_def]
  refine congrArg some (Fin.ext (ofGroups_groupsOf (b := 255) (k := 4) (by omega) ?_))
  simp [groupsOf, List.range_succ]

end

/-! ### IPv6 -/

theorem parseHextets_toDigits : ∀ {ds : List ℕ}, (∀ d ∈ ds, d < 65536) →
    ∃ groups, parseHextets (ds.map (Nat.toDigits 16)) = some groups ∧ groups.map Fin.val = ds
  | [], _ => ⟨[], rfl, rfl⟩
  | d :: ds, h => by
    have hd := h d List.mem_cons_self
    obtain ⟨groups, hgroups, hval⟩ := parseHextets_toDigits fun d' hd' =>
      h d' (List.mem_cons_of_mem d hd')
    refine ⟨⟨d, hd⟩ :: groups, ?_, congrArg (d :: ·) hval⟩
    rw [List.map_cons, parseHextets, parseHextet_toDigits hd, hgroups]
    rfl

section

variable {parts before after : List (List Char)}

/-- Where no part is empty, nothing was left out. -/
theorem skipIndices_eq_nil (h : ∀ part ∈ parts, part ≠ []) : skipIndices parts = [] := by
  unfold skipIndices
  refine List.filter_eq_nil_iff.mpr fun i hi hskip => ?_
  have hlt := List.mem_range.mp hi
  obtain ⟨-, hempty⟩ := Bool.and_eq_true_iff.mp hskip
  rw [List.getD_eq_getElem _ _ hlt] at hempty
  exact h _ (List.getElem_mem hlt) (List.isEmpty_iff.mp hempty)

/-- The empty part between two sides, each of which may have another at its end. -/
theorem skipIndices_eq_singleton (hbefore : before ≠ []) (hafter : after ≠ [])
    (hhead : ∀ part ∈ before.tail, part ≠ []) (hlast : ∀ part ∈ after.dropLast, part ≠ []) :
    skipIndices (before ++ [] :: after) = [before.length] := by
  have hb := List.length_pos_iff.mpr hbefore
  have ha := List.length_pos_iff.mpr hafter
  have hlength : (before ++ [] :: after).length = before.length + 1 + after.length := by
    rw [List.length_append, List.length_cons]
    omega
  have hskip : ∀ i ∈ List.range (before ++ [] :: after).length,
      (decide (0 < i ∧ i + 1 < (before ++ [] :: after).length) &&
        ((before ++ [] :: after).getD i []).isEmpty) = (i == before.length) := by
    intro i hi
    have hlt := List.mem_range.mp hi
    rw [hlength] at hlt ⊢
    rw [Bool.eq_iff_iff, Bool.and_eq_true, decide_eq_true_eq, List.isEmpty_iff, beq_iff_eq,
      List.getD_eq_getElem?_getD]
    constructor
    · rintro ⟨⟨hpos, hlt'⟩, hempty⟩
      by_contra hne
      rcases Nat.lt_or_gt_of_ne hne with hlow | hhigh
      · rw [List.getElem?_append_left hlow, List.getElem?_eq_getElem hlow] at hempty
        refine hhead before[i] ?_ hempty
        obtain ⟨j, rfl⟩ : ∃ j, i = j + 1 := ⟨i - 1, by omega⟩
        exact List.mem_iff_getElem?.mpr ⟨j, by
          rw [List.getElem?_tail, List.getElem?_eq_getElem hlow]⟩
      · obtain ⟨j, rfl⟩ : ∃ j, i = before.length + 1 + j := ⟨i - before.length - 1, by omega⟩
        have hj : j < after.length := by omega
        rw [List.getElem?_append_right (by omega),
          show before.length + 1 + j - before.length = j + 1 by omega, List.getElem?_cons_succ,
          List.getElem?_eq_getElem hj] at hempty
        refine hlast after[j] ?_ hempty
        exact List.mem_iff_getElem?.mpr ⟨j, by
          rw [List.getElem?_dropLast, if_pos (by omega), List.getElem?_eq_getElem hj]⟩
    · rintro rfl
      refine ⟨⟨hb, by omega⟩, ?_⟩
      rw [List.getElem?_append_right le_rfl, Nat.sub_self]
      rfl
  unfold skipIndices
  rw [List.filter_congr hskip, List.filter_beq, List.count_eq_one_of_mem List.nodup_range]
  · rfl
  · rw [List.mem_range, hlength]
    omega

/-- The side before the run: nothing, written as an empty part, or the first parts. -/
theorem sideOf_take {s : ℕ} (hne : ∀ part ∈ parts, part ≠ []) (hs : s ≤ parts.length)
    (hbefore : before = if s = 0 then [[]] else parts.take s) (rest : List (List Char)) :
    sideOf before (before ++ rest).head? = some (parts.take s) := by
  by_cases h0 : s = 0
  · rw [if_pos h0] at hbefore
    rw [hbefore, h0]
    rfl
  · rw [if_neg h0] at hbefore
    have hpos : before ≠ [] := by
      rw [hbefore, Ne, List.take_eq_nil_iff]
      rintro (h | h)
      · exact h0 h
      · rw [h, List.length_nil] at hs
        exact h0 (Nat.le_zero.mp hs)
    have hhead : (before ++ rest).head? ≠ some [] := by
      rw [List.head?_append_of_ne_nil _ hpos]
      intro he
      have hmem : [] ∈ before := List.mem_of_head? he
      rw [hbefore] at hmem
      exact hne [] (List.mem_of_mem_take hmem) rfl
    unfold sideOf
    rw [if_neg hhead, hbefore]

/-- The side after it. -/
theorem sideOf_drop {t : ℕ} (hne : ∀ part ∈ parts, part ≠ []) (ht : t ≤ parts.length)
    (hafter : after = if t = parts.length then [[]] else parts.drop t)
    (rest : List (List Char)) :
    sideOf after (rest ++ after).getLast? = some (parts.drop t) := by
  by_cases hend : t = parts.length
  · rw [if_pos hend] at hafter
    have hlast : (rest ++ after).getLast? = some [] := by
      rw [hafter]
      exact List.getLast?_concat
    unfold sideOf
    rw [if_pos hlast, hafter, hend, List.drop_length]
    rfl
  · rw [if_neg hend] at hafter
    have hpos : after ≠ [] := by
      rw [hafter, Ne, List.drop_eq_nil_iff]
      omega
    have hlast : (rest ++ after).getLast? ≠ some [] := by
      rw [List.getLast?_append_of_ne_nil _ hpos]
      intro he
      have hmem : [] ∈ after := List.mem_of_getLast? he
      rw [hafter] at hmem
      exact hne [] (List.mem_of_mem_drop hmem) rfl
    unfold sideOf
    rw [if_neg hlast, hafter]

end

section

variable {ds : List ℕ} {s len : ℕ}

/-- The parts of an address without a run. -/
theorem map_withoutRun (ds : List ℕ) (s len : ℕ) :
    (withoutRun (ds.map hexText) s len).map String.toList =
      (if s = 0 then [[]] else (ds.map (Nat.toDigits 16)).take s) ++ [] ::
        if s + len = (ds.map (Nat.toDigits 16)).length then [[]]
        else (ds.map (Nat.toDigits 16)).drop (s + len) := by
  have htext : (ds.map hexText).map String.toList = ds.map (Nat.toDigits 16) := by
    rw [List.map_map]
    exact List.map_congr_left fun d _ => String.toList_ofList
  have hbefore : ((if s = 0 then [""] else []) ++ (ds.map hexText).take s).map String.toList =
      if s = 0 then [[]] else (ds.map (Nat.toDigits 16)).take s := by
    rw [List.map_append, List.map_take, htext]
    split_ifs with h0
    · rw [h0]
      rfl
    · rfl
  have hafter : ((ds.map hexText).drop (s + len) ++
        if s + len = (ds.map hexText).length then [""] else []).map String.toList =
      if s + len = (ds.map (Nat.toDigits 16)).length then [[]]
      else (ds.map (Nat.toDigits 16)).drop (s + len) := by
    rw [List.map_append, List.map_drop, htext, List.length_map, List.length_map]
    split_ifs with hend
    · rw [hend, ← List.length_map (Nat.toDigits 16), List.drop_length]
      rfl
    · exact List.append_nil _
  unfold withoutRun
  rw [List.append_assoc, List.append_assoc, List.map_append, hbefore, List.map_append, hafter]
  rfl

/-- The zeros that a run left out are put back. -/
theorem hextetsOf_withoutRun (h8 : ds.length = 8) (hd : ∀ d ∈ ds, d < 65536) (hlen : 1 < len)
    (hle : s + len ≤ ds.length)
    (hzeros : ∀ k, s ≤ k → k < s + len → (ds.map hexText)[k]? = some "0") :
    ∃ groups, hextetsOf ((withoutRun (ds.map hexText) s len).map String.toList) = some groups ∧
      groups.map Fin.val = ds := by
  have hne : ∀ part ∈ ds.map (Nat.toDigits 16), part ≠ [] := fun part hpart => by
    obtain ⟨d, -, rfl⟩ := List.mem_map.mp hpart
    exact Nat.toDigits_ne_nil
  have hlength : (ds.map (Nat.toDigits 16)).length = 8 := by rw [List.length_map, h8]
  rw [map_withoutRun]
  obtain ⟨before, hbefore⟩ :
    ∃ before, before = if s = 0 then [[]] else (ds.map (Nat.toDigits 16)).take s := ⟨_, rfl⟩
  obtain ⟨after, hafter⟩ : ∃ after, after =
    if s + len = (ds.map (Nat.toDigits 16)).length then [[]]
    else (ds.map (Nat.toDigits 16)).drop (s + len) := ⟨_, rfl⟩
  rw [← hbefore, ← hafter]
  have hskip : skipIndices (before ++ [] :: after) = [before.length] := by
    refine skipIndices_eq_singleton ?_ ?_ ?_ ?_
    · rw [hbefore]
      split_ifs with h0
      · exact List.cons_ne_nil _ _
      · rw [Ne, List.take_eq_nil_iff, ← List.length_eq_zero_iff, hlength]
        omega
    · rw [hafter]
      split_ifs with hend
      · exact List.cons_ne_nil _ _
      · rw [Ne, List.drop_eq_nil_iff]
        omega
    · rw [hbefore]
      split_ifs
      · exact fun _ hpart => absurd hpart List.not_mem_nil
      · exact fun part hpart => hne part (List.mem_of_mem_take (List.mem_of_mem_tail hpart))
    · rw [hafter]
      split_ifs
      · exact fun _ hpart => absurd hpart List.not_mem_nil
      · exact fun part hpart => hne part (List.mem_of_mem_drop ((List.dropLast_subset _) hpart))
  have hdtake : ∀ d ∈ ds.take s, d < 65536 := fun d hd' => hd d (List.mem_of_mem_take hd')
  have hddrop : ∀ d ∈ ds.drop (s + len), d < 65536 := fun d hd' =>
    hd d (List.mem_of_mem_drop hd')
  obtain ⟨his, hparse, hhis⟩ := parseHextets_toDigits hdtake
  obtain ⟨los, hparse', hlos⟩ := parseHextets_toDigits hddrop
  rw [List.map_take] at hparse
  rw [List.map_drop] at hparse'
  have htake : ((ds.map (Nat.toDigits 16)).take s).length = s := by
    rw [List.length_take]
    omega
  have hdrop : ((ds.map (Nat.toDigits 16)).drop (s + len)).length = 8 - (s + len) := by
    rw [List.length_drop, hlength]
  have hhi := sideOf_take hne (by omega) hbefore ([] :: after)
  have hlo := sideOf_drop hne (by omega) hafter (before ++ [[]])
  rw [List.append_assoc, List.singleton_append] at hlo
  refine ⟨his ++ List.replicate len 0 ++ los, ?_, ?_⟩
  · unfold hextetsOf
    simp only [hskip]
    rw [List.take_left, hhi, ← List.drop_drop, List.drop_left, List.drop_one, List.tail_cons, hlo]
    simp only [Option.bind_eq_bind, Option.bind_some, htake, hdrop, hparse, hparse']
    rw [if_neg (by omega), show 8 - (s + (8 - (s + len))) = len by omega]
    rfl
  · refine List.map_injective_iff.mpr hexText_injective ?_
    have hval : (his ++ List.replicate len 0 ++ los).map Fin.val =
        ds.take s ++ List.replicate len 0 ++ ds.drop (s + len) := by
      rw [List.map_append, List.map_append, hhis, hlos, List.map_replicate]
      rfl
    rw [hval, List.map_append, List.map_append, List.map_replicate, List.map_take, List.map_drop]
    exact eq_around_zeros (by rw [List.length_map]; exact hle) hzeros

/-- Compressed or not, the hextets are read back. -/
theorem hextetsOf_compressHextets (h8 : ds.length = 8) (hd : ∀ d ∈ ds, d < 65536) :
    ∃ groups, hextetsOf ((compressHextets (ds.map hexText)).map String.toList) = some groups ∧
      groups.map Fin.val = ds := by
  have htracks := tracks_zeroRuns (ds.map hexText)
  rw [compressHextets_eq]
  by_cases hlen : 1 < (zeroRuns (ds.map hexText)).bestLen
  · rw [if_pos hlen]
    have hle := htracks.best_le
    rw [List.length_map] at hle
    exact hextetsOf_withoutRun h8 hd hlen hle htracks.best
  · rw [if_neg hlen, List.map_map]
    have htext : ds.map (String.toList ∘ hexText) = ds.map (Nat.toDigits 16) :=
      List.map_congr_left fun d _ => String.toList_ofList
    have hskip : skipIndices (ds.map (Nat.toDigits 16)) = [] :=
      skipIndices_eq_nil fun part hpart => by
        obtain ⟨d, -, rfl⟩ := List.mem_map.mp hpart
        exact Nat.toDigits_ne_nil
    obtain ⟨groups, hgroups, hval⟩ := parseHextets_toDigits hd
    refine ⟨groups, ?_, hval⟩
    unfold hextetsOf
    rw [htext]
    simp only [hskip]
    rw [if_pos (by rw [List.length_map, h8]), hgroups]

/-- There are three parts at least, and nine at most. -/
theorem length_compressHextets (h8 : ds.length = 8) :
    2 < (compressHextets (ds.map hexText)).length ∧
      (compressHextets (ds.map hexText)).length ≤ 9 := by
  have hle := (tracks_zeroRuns (ds.map hexText)).best_le
  have hlength : (ds.map hexText).length = 8 := by rw [List.length_map, h8]
  rw [hlength] at hle
  rw [compressHextets_eq]
  split_ifs with hlen
  · unfold withoutRun
    simp only [List.length_append, List.length_take, List.length_drop, List.length_singleton,
      hlength]
    split_ifs <;> simp <;> omega
  · omega

end

theorem splitOn_str_v6 (n : ℕ) : (stringFromIpInt .v6 n).toList.splitOn ':' =
    (compressHextets ((groupsOf 65536 n 8).map hexText)).map String.toList := by
  rw [stringFromIpInt_v6, splitOn_intercalate_texts (by rfl)]
  · refine compressHextets_ne_nil fun hnil => ?_
    have hlength := congrArg List.length hnil
    rw [List.length_map, length_groupsOf] at hlength
    cases hlength
  · intro text htext hc
    rcases mem_compressHextets htext with rfl | htext
    · simp at hc
    · obtain ⟨d, -, rfl⟩ := List.mem_map.mp htext
      exact absurd (isHexDigit_of_mem_hexText hc) (by decide)

theorem expandSuffix_of_notMem {parts : List (List Char)} (h : ∀ part ∈ parts, '.' ∉ part) :
    expandSuffix parts = some parts := by
  unfold expandSuffix
  refine if_neg fun hpoint => ?_
  rw [List.getLastD_eq_getLast?] at hpoint
  cases hlast : parts.getLast? with
  | none => simp [hlast] at hpoint
  | some part =>
    rw [hlast, Option.getD_some] at hpoint
    exact h part (List.mem_of_getLast? hlast) hpoint

/-- An IPv6 address is read back. -/
theorem ipv6Int_str {n : ℕ} (hn : n < 2 ^ 128) :
    ipv6Int (stringFromIpInt .v6 n).toList = some ⟨n, hn⟩ := by
  have hlength := length_compressHextets (length_groupsOf (b := 65536) n 8)
  obtain ⟨groups, hgroups, hval⟩ := hextetsOf_compressHextets (length_groupsOf (b := 65536) n 8)
    fun d hd => by
      obtain ⟨i, -, rfl⟩ := List.mem_map.mp hd
      exact Nat.mod_lt _ (by norm_num)
  have hsuffix : expandSuffix
      ((compressHextets ((groupsOf 65536 n 8).map hexText)).map String.toList) = some _ :=
    expandSuffix_of_notMem fun part hpart hpoint => by
      obtain ⟨text, htext, rfl⟩ := List.mem_map.mp hpart
      rcases mem_compressHextets htext with rfl | htext
      · simp at hpoint
      · obtain ⟨d, -, rfl⟩ := List.mem_map.mp htext
        exact absurd (isHexDigit_of_mem_hexText hpoint) (by decide)
  unfold ipv6Int
  rw [splitOn_str_v6]
  simp only [List.length_map, hsuffix, Option.bind_eq_bind, Option.bind_some]
  rw [if_neg (by omega), if_neg (by omega)]
  split
  · next hnone =>
    rw [hgroups] at hnone
    cases hnone
  · next hs hsome =>
    rw [hgroups] at hsome
    cases hsome
    exact congrArg some (Fin.ext (ofGroups_groupsOf (b := 65535) (k := 8) (by omega) hval))

/-! ### Addresses and networks -/

/-- An address whose scope id a text can have. -/
def IPAddress.Readable (a : IPAddress) : Prop :=
  ∀ id, a.scopeId = some id → '%' ∉ id.toList ∧ '/' ∉ id.toList

theorem slash_notMem_stringFromIpInt {v : Version} {n : ℕ} :
    '/' ∉ (stringFromIpInt v n).toList :=
  notMem_stringFromIpInt (by decide) (by cases v <;> decide)

theorem slash_mem_str {a : IPAddress} :
    '/' ∈ a.str.toList ↔ ∃ id, a.scopeId = some id ∧ '/' ∈ id.toList := by
  rw [str_toList, List.mem_append]
  cases hid : a.scopeId with
  | none => simp [scopeText, slash_notMem_stringFromIpInt]
  | some id => simp [scopeText, slash_notMem_stringFromIpInt]

theorem IPAddress.Readable.slash_notMem {a : IPAddress} (h : a.Readable) :
    '/' ∉ a.str.toList := fun hc => by
  obtain ⟨id, hid, hmem⟩ := slash_mem_str.mp hc
  exact (h id hid).2 hmem

theorem exists_mem_splitOn {sep c : Char} (hne : c ≠ sep) : ∀ {s : List Char}, c ∈ s →
    ∃ part ∈ s.splitOn sep, c ∈ part
  | x :: s, h => by
    obtain ⟨part, rest, hsplit⟩ := List.exists_cons_of_ne_nil (List.splitOn_ne_nil sep s)
    rw [List.splitOn_cons_eq_if_modifyHead]
    split_ifs with hx
    · rcases List.mem_cons.mp h with rfl | h
      · exact absurd (beq_iff_eq.mp hx) hne
      · obtain ⟨part', hpart', hc⟩ := exists_mem_splitOn hne h
        exact ⟨part', List.mem_cons_of_mem _ hpart', hc⟩
    · rw [hsplit, List.modifyHead_cons]
      rcases List.mem_cons.mp h with rfl | h
      · exact ⟨_, List.mem_cons_self, List.mem_cons_self⟩
      · obtain ⟨part', hpart', hc⟩ := exists_mem_splitOn hne h
        rw [hsplit] at hpart'
        rcases List.mem_cons.mp hpart' with rfl | hpart'
        · exact ⟨_, List.mem_cons_self, List.mem_cons_of_mem x hc⟩
        · exact ⟨part', List.mem_cons_of_mem _ hpart', hc⟩

/-- The digits of an IPv4 address are no digits where there is a colon. -/
theorem ipv4Int_of_colon {s : List Char} (h : ':' ∈ s) : ipv4Int s = none := by
  obtain ⟨part, hpart, hc⟩ := exists_mem_splitOn (by decide : ':' ≠ '.') h
  have hnone : parseOctet part = none := by
    refine if_pos (Or.inl fun hdigits => ?_)
    have hall := (Bool.and_eq_true_iff.mp hdigits).2
    exact absurd (List.all_eq_true.mp hall ':' hc) (by decide)
  unfold ipv4Int
  split
  · next a b c d hsplit =>
    rw [hsplit] at hpart
    simp only [List.mem_cons, List.not_mem_nil, or_false] at hpart
    rcases hpart with rfl | rfl | rfl | rfl
    · rw [hnone]
      rfl
    · cases parseOctet a <;> simp [hnone]
    · cases parseOctet a <;> cases parseOctet b <;> simp [hnone]
    · cases parseOctet a <;> cases parseOctet b <;> cases parseOctet c <;> simp [hnone]
  · rfl

theorem colon_mem_str_v6 (n : ℕ) : ':' ∈ (stringFromIpInt .v6 n).toList := by
  by_contra hnone
  have hsplit := splitOn_str_v6 n
  rw [List.splitOn_eq_singleton hnone] at hsplit
  have hlength := (length_compressHextets (length_groupsOf (b := 65536) n 8)).1
  have hone := congrArg List.length hsplit
  rw [List.length_map, List.length_singleton] at hone
  omega

/-- A scope id comes after the first percent sign, and has none. -/
theorem splitScopeId_str {s : List Char} (hs : '%' ∉ s) {id : Option String} (hne : id ≠ some "") :
    splitScopeId (s ++ scopeText id) =
      if ∀ text, id = some text → '%' ∉ text.toList then some (s, ⟨id, hne⟩) else none := by
  have hall : ∀ c ∈ s, (c != '%') = true := fun c hc => bne_iff_ne.mpr fun he => hs (he ▸ hc)
  cases id with
  | none =>
    have hdrop : (s ++ scopeText none).dropWhile (· != '%') = [] := by
      rw [List.dropWhile_append_of_pos hall]
      rfl
    rw [if_pos nofun]
    unfold splitScopeId
    rw [hdrop]
    simp only [scopeText, List.append_nil]
  | some text =>
    have hdrop : (s ++ scopeText (some text)).dropWhile (· != '%') = '%' :: text.toList := by
      rw [List.dropWhile_append_of_pos hall]
      rfl
    have htake : (s ++ scopeText (some text)).takeWhile (· != '%') = s := by
      rw [List.takeWhile_append_of_pos hall]
      exact List.append_nil s
    have hnil : text.toList ≠ [] := by
      intro h
      exact hne (congrArg some (String.toList_inj.mp (h.trans String.toList_empty.symm)))
    unfold splitScopeId
    rw [hdrop, htake]
    by_cases hmark : '%' ∈ text.toList
    · rw [if_neg fun h => h text rfl hmark]
      exact dif_pos (Or.inr hmark)
    · rw [if_pos fun _ he => Option.some.inj he ▸ hmark]
      refine (dif_neg (not_or.mpr ⟨hnil, hmark⟩)).trans ?_
      simp only [String.ofList_toList]

theorem ipv4Address_of_colon {s : List Char} (h : ':' ∈ s) : ipv4Address s = none := by
  unfold ipv4Address
  rw [ipv4Int_of_colon h, Option.map_none, ite_self]

theorem colon_mem_str {a : IPAddress} (hv : a.version = .v6) : ':' ∈ a.str.toList := by
  rw [str_toList, hv]
  exact List.mem_append_left _ (colon_mem_str_v6 a.ip)

theorem ipv6Address_str {a : IPAddress} (hv : a.version = .v6) (hslash : '/' ∉ a.str.toList) :
    ipv6Address a.str.toList =
      if ∀ id, a.scopeId = some id → '%' ∉ id.toList then some a else none := by
  have hlt : a.ip < 2 ^ 128 := by
    have hlt := a.ip_lt
    rwa [hv] at hlt
  unfold ipv6Address
  rw [if_neg hslash, str_toList, splitScopeId_str percent_notMem a.scopeId_ne, hv]
  split_ifs
  · simp only [Option.bind_eq_bind, Option.bind_some, ipv6Int_str hlt, Option.pure_def]
    exact congrArg some (IPAddress.ext hv.symm rfl rfl)
  · rfl

/-- Where a slash is, there is no address. -/
theorem ipAddress_of_slash {text : String} (h : '/' ∈ text.toList) : ipAddress text = none := by
  unfold ipAddress ipv4Address ipv6Address
  rw [if_pos h, if_pos h]
  rfl

/-- A written address is read as itself. -/
theorem ipAddress_str {a : IPAddress} (h : a.Readable) : ipAddress a.str = some a := by
  cases hv : a.version with
  | v4 =>
    have hid := a.v4_scopeId hv
    have hlt : a.ip < 2 ^ 32 := by
      have hlt := a.ip_lt
      rwa [hv] at hlt
    have hread : ipv4Address a.str.toList = some a := by
      unfold ipv4Address
      rw [if_neg h.slash_notMem, str_toList, hid, hv, scopeText, List.append_nil, ipv4Int_str hlt]
      exact congrArg some (IPAddress.ext hv.symm rfl hid.symm)
    unfold ipAddress
    rw [hread]
    rfl
  | v6 =>
    unfold ipAddress
    rw [ipv4Address_of_colon (colon_mem_str hv), ipv6Address_str hv h.slash_notMem,
      if_pos fun id hid => (h id hid).1]
    rfl

/-- And as nothing if its scope id has a mark in it. -/
theorem ipAddress_str_iff {a b : IPAddress} : ipAddress a.str = some b ↔ a = b ∧ a.Readable := by
  by_cases hread : a.Readable
  · rw [ipAddress_str hread, Option.some_inj, and_iff_left hread]
  · have hnone : ipAddress a.str = none := by
      by_cases hslash : '/' ∈ a.str.toList
      · exact ipAddress_of_slash hslash
      · have hmark : ¬ ∀ id, a.scopeId = some id → '%' ∉ id.toList := fun hmark =>
          hread fun id hid => ⟨hmark id hid, fun hc => hslash (slash_mem_str.mpr ⟨id, hid, hc⟩)⟩
        have hv : a.version = .v6 := by
          cases hv : a.version with
          | v4 => exact absurd (fun id hid => by rw [a.v4_scopeId hv] at hid; cases hid) hmark
          | v6 => rfl
        unfold ipAddress
        rw [ipv4Address_of_colon (colon_mem_str hv), ipv6Address_str hv hslash, if_neg hmark]
        rfl
    rw [hnone]
    exact ⟨nofun, fun h => absurd h.2 hread⟩

/-- A scope id that was read. -/
theorem splitScopeId_eq_some {s addr : List Char}
    {scopeId : { scopeId : Option String // scopeId ≠ some "" }} {id : String}
    (h : splitScopeId s = some (addr, scopeId)) (hid : scopeId.val = some id) :
    '%' ∉ id.toList ∧ s = addr ++ '%' :: id.toList := by
  unfold splitScopeId at h
  split at h
  · cases h
    cases hid
  · next c rest hrest =>
    split_ifs at h with hbad
    cases h
    cases hid
    have hcons : s.dropWhile (· != '%') ≠ [] := by
      rw [hrest]
      exact List.cons_ne_nil c rest
    have hmark := List.head_dropWhile_not _ hcons
    simp only [hrest, List.head_cons, bne_eq_false_iff_eq] at hmark
    subst hmark
    rw [String.toList_ofList]
    exact ⟨(not_or.mp hbad).2, by rw [← hrest, List.takeWhile_append_dropWhile]⟩

/-- What is read of a text. -/
theorem ipv6Address_eq_some {s : List Char} {a : IPAddress} (h : ipv6Address s = some a) :
    '/' ∉ s ∧ ∀ id, a.scopeId = some id →
      '%' ∉ id.toList ∧ ∃ addr, s = addr ++ '%' :: id.toList := by
  unfold ipv6Address at h
  split_ifs at h with hslash
  simp only [Option.bind_eq_bind, Option.bind_eq_some_iff, Option.pure_def] at h
  obtain ⟨⟨addr, scopeId⟩, hscope, n, -, he⟩ := h
  cases he
  refine ⟨hslash, fun id hid => ?_⟩
  obtain ⟨hmark, htext⟩ := splitScopeId_eq_some hscope hid
  exact ⟨hmark, addr, htext⟩

theorem ipv4Address_eq_some {s : List Char} {a : IPAddress} (h : ipv4Address s = some a) :
    a.scopeId = none := by
  unfold ipv4Address at h
  split_ifs at h
  obtain ⟨n, -, rfl⟩ := Option.map_eq_some_iff.mp h
  rfl

theorem ipAddress_eq_some {text : String} {a : IPAddress} (h : ipAddress text = some a) :
    a.scopeId = none ∨ ipv6Address text.toList = some a := by
  unfold ipAddress at h
  cases h4 : ipv4Address text.toList with
  | some b =>
    rw [h4] at h
    cases h
    exact Or.inl (ipv4Address_eq_some h4)
  | none =>
    rw [h4] at h
    exact Or.inr h

theorem IPAddress.Readable.of_none {a : IPAddress} (h : a.scopeId = none) : a.Readable :=
  fun id hid => by
    rw [h] at hid
    cases hid

theorem IPAddress.Readable.of_v6 {s : List Char} {a : IPAddress} (h : ipv6Address s = some a) :
    a.Readable := fun id hid => by
  obtain ⟨hslash, hscope⟩ := ipv6Address_eq_some h
  obtain ⟨hmark, addr, rfl⟩ := hscope id hid
  exact ⟨hmark, fun hc => hslash (List.mem_append_right _ (List.mem_cons_of_mem _ hc))⟩

/-- What is read from a text can be read again. -/
theorem readable_of_ipAddress {text : String} {a : IPAddress} (h : ipAddress text = some a) :
    a.Readable :=
  (ipAddress_eq_some h).elim .of_none .of_v6

section

variable {n m : IPNetwork}

theorem IPNetwork.str_toList (n : IPNetwork) : n.str.toList =
    n.networkAddress.str.toList ++ '/' :: Nat.toDigits 10 n.prefixlen := by
  have hdigits : (toString n.prefixlen).toList = Nat.toDigits 10 n.prefixlen := by
    rw [Nat.toString_eq_ofList_toDigits, String.toList_ofList]
  unfold IPNetwork.str
  rw [String.toList_append, String.toList_append, hdigits, List.append_assoc]
  rfl

theorem splitOn_networkStr (n : IPNetwork) : n.str.toList.splitOn '/' =
    n.networkAddress.str.toList.splitOn '/' ++ [Nat.toDigits 10 n.prefixlen] := by
  have hdigits : '/' ∉ Nat.toDigits 10 n.prefixlen := fun hc =>
    absurd (isDigit_of_mem_toDigits _ _ hc) (by decide)
  rw [IPNetwork.str_toList, List.splitOn_append_cons_self, List.splitOn_eq_singleton hdigits]

theorem prefixFromPrefixString_toDigits {v : Version} {p : ℕ} (hp : p ≤ v.bits) :
    prefixFromPrefixString v (Nat.toDigits 10 p) = some ⟨p, Nat.lt_succ_of_le hp⟩ := by
  have hbits : v.bits ≤ 128 := by cases v <;> decide
  have hlength := Nat.toDigits_length 10 p 3 (by norm_num) (by omega)
  have hread := readInt_toDigits (b := 10) (by norm_num) (by norm_num) p
  unfold prefixFromPrefixString
  rw [if_neg (not_or.mpr ⟨not_not.mpr (asciiDigits_toDigits p), by
    unfold maxStrDigits
    omega⟩), dif_pos (hread.symm ▸ hp)]
  exact congrArg some (Fin.ext hread)

theorem makeNetmask_toDigits {v : Version} {p : ℕ} (hp : p ≤ v.bits) :
    makeNetmask (Nat.toDigits 10 p) v = some ⟨p, Nat.lt_succ_of_le hp⟩ := by
  cases v with
  | v4 =>
    unfold makeNetmask
    rw [prefixFromPrefixString_toDigits hp]
    rfl
  | v6 => exact prefixFromPrefixString_toDigits hp

/-- A network has no host bits to mask off. -/
theorem IPNetwork.of_networkAddress (n : IPNetwork) :
    IPNetwork.of n.networkAddress ⟨n.prefixlen, Nat.lt_succ_of_le n.prefixlen_le⟩ = n :=
  dif_pos n.masked

/-- The text of a network, read by the class that reads its address. -/
theorem networkOf_str {parse : List Char → Option IPAddress}
    (hslash : '/' ∉ n.networkAddress.str.toList)
    (h : parse n.networkAddress.str.toList = some n.networkAddress) :
    networkOf parse n.str.toList = some n := by
  unfold networkOf
  rw [splitOn_networkStr, List.splitOn_eq_singleton hslash]
  simp only [List.singleton_append, h, Option.bind_eq_bind, Option.bind_some,
    makeNetmask_toDigits n.prefixlen_le, Option.pure_def, n.of_networkAddress]

theorem networkOf_str_none {parse : List Char → Option IPAddress}
    (h : '/' ∈ n.networkAddress.str.toList ∨ parse n.networkAddress.str.toList = none) :
    networkOf parse n.str.toList = none := by
  unfold networkOf
  rw [splitOn_networkStr]
  by_cases hslash : '/' ∈ n.networkAddress.str.toList
  · obtain ⟨pre, post, hsplit⟩ := List.append_of_mem hslash
    obtain ⟨a, as, ha⟩ := List.exists_cons_of_ne_nil (List.splitOn_ne_nil '/' pre)
    obtain ⟨b, bs, hb⟩ := List.exists_cons_of_ne_nil (List.splitOn_ne_nil '/' post)
    rw [hsplit, List.splitOn_append_cons_self, ha, hb]
    cases as with
    | nil => cases bs <;> rfl
    | cons a' as => cases as <;> rfl
  · rw [List.splitOn_eq_singleton hslash]
    simp only [List.singleton_append, h.resolve_left hslash, Option.bind_eq_bind, Option.bind_none]

/-- A written network is read as itself. -/
theorem ipNetwork_str (h : n.networkAddress.Readable) : ipNetwork n.str = some n := by
  have hread := ipAddress_str h
  unfold ipAddress at hread
  unfold ipNetwork
  cases h4 : ipv4Address n.networkAddress.str.toList with
  | some a =>
    rw [h4] at hread
    rw [networkOf_str h.slash_notMem (h4.trans hread)]
    rfl
  | none =>
    rw [h4] at hread
    rw [networkOf_str_none (Or.inr h4), networkOf_str h.slash_notMem hread]
    rfl

theorem ipNetwork_str_iff : ipNetwork n.str = some m ↔ n = m ∧ n.networkAddress.Readable := by
  by_cases hread : n.networkAddress.Readable
  · rw [ipNetwork_str hread, Option.some_inj, and_iff_left hread]
  · have hnone : ipNetwork n.str = none := by
      unfold ipNetwork
      by_cases hslash : '/' ∈ n.networkAddress.str.toList
      · rw [networkOf_str_none (Or.inl hslash), networkOf_str_none (Or.inl hslash)]
        rfl
      · have hnone : ipAddress n.networkAddress.str = none :=
          Option.eq_none_iff_forall_ne_some.mpr fun a ha => hread (ipAddress_str_iff.mp ha).2
        unfold ipAddress at hnone
        cases h4 : ipv4Address n.networkAddress.str.toList with
        | some a =>
          rw [h4] at hnone
          cases hnone
        | none =>
          rw [h4] at hnone
          rw [networkOf_str_none (Or.inr h4), networkOf_str_none (Or.inr hnone)]
          rfl
    rw [hnone]
    exact ⟨nofun, fun h => absurd h.2 hread⟩

theorem IPAddress.Readable.of_network {a : IPAddress} (h : a.Readable)
    (len : Fin (a.version.bits + 1)) : (IPNetwork.of a len).networkAddress.Readable := by
  unfold IPNetwork.of
  split_ifs
  · exact h
  · exact .of_none rfl

theorem readable_of_networkOf {parse : List Char → Option IPAddress} {s : List Char}
    (hparse : ∀ s a, parse s = some a → a.Readable) (h : networkOf parse s = some n) :
    n.networkAddress.Readable := by
  unfold networkOf at h
  split at h
  · obtain ⟨a, ha, rfl⟩ := Option.map_eq_some_iff.mp h
    exact (hparse _ a ha).of_network _
  · simp only [Option.bind_eq_bind, Option.bind_eq_some_iff, Option.pure_def] at h
    obtain ⟨a, ha, len, -, he⟩ := h
    cases he
    exact (hparse _ a ha).of_network _
  · cases h

theorem readable_of_ipNetwork {text : String} (h : ipNetwork text = some n) :
    n.networkAddress.Readable := by
  unfold ipNetwork at h
  cases h4 : networkOf ipv4Address text.toList with
  | some m =>
    rw [h4] at h
    cases h
    exact readable_of_networkOf (fun _ _ ha => .of_none (ipv4Address_eq_some ha)) h4
  | none =>
    rw [h4] at h
    exact readable_of_networkOf (fun _ _ ha => .of_v6 ha) h

end

/-- **What is written is read back.** The text of an address or a network is read as just
that one, or, if its scope id has a percent sign or a slash in it, as none at all. -/
theorem read_str_iff :
    (∀ a b : IPAddress, ipAddress a.str = some b ↔ a = b ∧ a.Readable) ∧
      ∀ n m : IPNetwork, ipNetwork n.str = some m ↔ n = m ∧ n.networkAddress.Readable :=
  ⟨fun _ _ => ipAddress_str_iff, fun _ _ => ipNetwork_str_iff⟩

end ScanLedger
