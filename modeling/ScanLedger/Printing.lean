/-
# The text of an address

Findings name a host by `str(address)`. The text determines the address: digits
determine a number, the place of the empty parts and the number of the others
determine what a compressed IPv6 address leaves out, and a scope id is what
follows the first percent sign (`str_injective`).

Key definitions: `expandHextets`.
Key theorems: `readInt_toDigits`, `expandHextets_compressHextets`, `str_injective`.
-/
import Mathlib.Data.List.Basic
import Mathlib.Data.List.Induction
import Mathlib.Data.List.TakeWhile
import ScanLedger.IpAddress

namespace ScanLedger

/-! ### Digits -/

section

variable {b : ℕ}

theorem digitValue_digitChar : ∀ d < 16, digitValue (Nat.digitChar d) = d := by
  decide

theorem isHexDigit_digitChar : ∀ d < 16, isHexDigit (Nat.digitChar d) = true := by
  decide

theorem readInt_snoc (s : List Char) (c : Char) :
    readInt b (s ++ [c]) = b * readInt b s + digitValue c := by
  unfold readInt
  rw [List.foldl_append]
  rfl

/-- Digits are read back. -/
theorem readInt_toDigits (hb : 1 < b) (hb' : b ≤ 16) (n : ℕ) :
    readInt b (Nat.toDigits b n) = n := by
  induction n using Nat.strongRecOn with
  | ind n ih =>
    rw [Nat.toDigits_eq_if hb]
    split_ifs with hn
    · have hread := readInt_snoc (b := b) [] (Nat.digitChar n)
      rw [List.nil_append] at hread
      rw [hread, digitValue_digitChar n (by omega)]
      simp [readInt]
    · have hdiv : n / b < n := Nat.div_lt_self (by omega) hb
      have hmod : n % b < b := Nat.mod_lt n (by omega)
      rw [readInt_snoc, ih _ hdiv, digitValue_digitChar _ (by omega)]
      exact Nat.div_add_mod n b

theorem toDigits_injective (hb : 1 < b) (hb' : b ≤ 16) : Function.Injective (Nat.toDigits b) := by
  intro n m h
  rw [← readInt_toDigits hb hb' n, h, readInt_toDigits hb hb' m]

theorem isHexDigit_of_mem_toDigits (hb : 1 < b) (hb' : b ≤ 16) (n : ℕ) :
    ∀ c ∈ Nat.toDigits b n, isHexDigit c = true := by
  induction n using Nat.strongRecOn with
  | ind n ih =>
    rw [Nat.toDigits_eq_if hb]
    split_ifs with hn
    · intro c hc
      rw [List.mem_singleton.mp hc]
      exact isHexDigit_digitChar n (by omega)
    · intro c hc
      have hdiv : n / b < n := Nat.div_lt_self (by omega) hb
      have hmod : n % b < b := Nat.mod_lt n (by omega)
      rcases List.mem_append.mp hc with hc | hc
      · exact ih _ hdiv c hc
      · rw [List.mem_singleton.mp hc]
        exact isHexDigit_digitChar _ (by omega)

/-- The lower digits, up to the `k`-th, determine the number below `b ^ k`. -/
theorem mod_pow_eq_of_digits {n m : ℕ} : ∀ k, (∀ i < k, n / b ^ i % b = m / b ^ i % b) →
    n % b ^ k = m % b ^ k
  | 0, _ => by rw [pow_zero, Nat.mod_one, Nat.mod_one]
  | k + 1, h => by
    have ih := mod_pow_eq_of_digits k fun i hi => h i (by omega)
    rw [Nat.mod_pow_succ, Nat.mod_pow_succ, ih, h k (by omega)]

theorem groupsOf_injOn {n m k : ℕ} (hn : n < b ^ k) (hm : m < b ^ k)
    (h : groupsOf b n k = groupsOf b m k) : n = m := by
  have hdigits : ∀ i < k, n / b ^ i % b = m / b ^ i % b := fun i hi =>
    List.map_inj_left.mp h i (List.mem_reverse.mpr (List.mem_range.mpr hi))
  have hmod := mod_pow_eq_of_digits k hdigits
  rwa [Nat.mod_eq_of_lt hn, Nat.mod_eq_of_lt hm] at hmod

theorem length_groupsOf (n k : ℕ) : (groupsOf b n k).length = k := by
  rw [groupsOf, List.length_map, List.length_reverse, List.length_range]

end

/-! ### Compression -/

/-- What the loop of `_compress_hextets` knows after these hextets. -/
structure ZeroRuns.Tracks (z : ZeroRuns) (hextets : List String) : Prop where
  run : 0 < z.len → z.start + z.len = hextets.length
  zeros : 0 < z.len → ∀ k, z.start ≤ k → k < hextets.length → hextets[k]? = some "0"
  best_le : z.bestStart + z.bestLen ≤ hextets.length
  best : ∀ k, z.bestStart ≤ k → k < z.bestStart + z.bestLen → hextets[k]? = some "0"

theorem ZeroRuns.Tracks.read {z : ZeroRuns} {hextets : List String} (h : z.Tracks hextets)
    (hextet : String) : (z.read hextets.length hextet).Tracks (hextets ++ [hextet]) := by
  have hold : ∀ k < hextets.length, (hextets ++ [hextet])[k]? = hextets[k]? := fun k hk =>
    List.getElem?_append_left hk
  have hnew : (hextets ++ [hextet])[hextets.length]? = some hextet := List.getElem?_concat_length
  have hlen : (hextets ++ [hextet]).length = hextets.length + 1 := List.length_append
  have hbest : z.bestStart + z.bestLen ≤ (hextets ++ [hextet]).length ∧
      ∀ k, z.bestStart ≤ k → k < z.bestStart + z.bestLen →
        (hextets ++ [hextet])[k]? = some "0" := by
    have hle := h.best_le
    refine ⟨by omega, fun k h1 h2 => ?_⟩
    rw [hold k (by omega)]
    exact h.best k h1 h2
  unfold ZeroRuns.read
  by_cases hzero : hextet = "0"
  · rw [if_pos hzero]
    -- the run that ends here, of a hextet more than before
    obtain ⟨start, hstart⟩ : ∃ start, start = if z.len = 0 then hextets.length else z.start :=
      ⟨_, rfl⟩
    have hrun : start + (z.len + 1) = (hextets ++ [hextet]).length := by
      rw [hstart, hlen]
      by_cases h0 : z.len = 0
      · rw [if_pos h0, h0]
      · have hend := h.run (by omega)
        rw [if_neg h0]
        omega
    have hzeros : ∀ k, start ≤ k → k < (hextets ++ [hextet]).length →
        (hextets ++ [hextet])[k]? = some "0" := by
      intro k h1 h2
      by_cases hk : k = hextets.length
      · rw [hk, hnew, hzero]
      · have hlt : k < hextets.length := by omega
        rw [hold k hlt]
        by_cases h0 : z.len = 0
        · rw [hstart, if_pos h0] at h1
          omega
        · rw [hstart, if_neg h0] at h1
          exact h.zeros (by omega) k h1 hlt
    dsimp only
    rw [← hstart]
    split_ifs
    · exact ⟨fun _ => hrun, fun _ => hzeros, hrun.le, fun k h1 h2 => hzeros k h1 (hrun ▸ h2)⟩
    · exact ⟨fun _ => hrun, fun _ => hzeros, hbest.1, hbest.2⟩
  · rw [if_neg hzero]
    exact ⟨fun h0 => absurd h0 (lt_irrefl 0), fun h0 => absurd h0 (lt_irrefl 0), hbest.1, hbest.2⟩

/-- The loop over all hextets. -/
def zeroRuns (hextets : List String) : ZeroRuns :=
  hextets.zipIdx.foldl (fun z h => ZeroRuns.read z h.2 h.1) ⟨0, 0, 0, 0⟩

theorem tracks_zeroRuns (hextets : List String) : (zeroRuns hextets).Tracks hextets := by
  induction hextets using List.reverseRecOn with
  | nil => exact ⟨nofun, nofun, le_rfl, fun k _ hk => absurd hk (Nat.not_lt_zero k)⟩
  | append_singleton hextets h ih =>
    have hread := ih.read h
    have hfold : zeroRuns (hextets ++ [h]) = (zeroRuns hextets).read hextets.length h := by
      unfold zeroRuns
      rw [List.zipIdx_append, List.foldl_append, Nat.zero_add]
      rfl
    rwa [hfold]

/-- The hextets around the best run, and the run. -/
theorem eq_around_zeros {hextets : List String} {s len : ℕ} (hle : s + len ≤ hextets.length)
    (h : ∀ k, s ≤ k → k < s + len → hextets[k]? = some "0") :
    hextets.take s ++ List.replicate len "0" ++ hextets.drop (s + len) = hextets := by
  have hrun : (hextets.drop s).take len = List.replicate len "0" := by
    refine List.eq_replicate_iff.mpr ⟨by simp; omega, fun text htext => ?_⟩
    obtain ⟨i, hi⟩ := List.mem_iff_getElem?.mp htext
    rw [List.getElem?_take] at hi
    split_ifs at hi with hlt
    rw [List.getElem?_drop, h _ (by omega) (by omega)] at hi
    exact (Option.some.inj hi).symm
  rw [← hrun, List.append_assoc, ← List.drop_drop, List.take_append_drop, List.take_append_drop]

/-- What eight hextets were before their compression. -/
def expandHextets (parts : List String) : List String :=
  let kept := parts.filter (· ≠ "")
  let s := (parts.takeWhile (· ≠ "")).length
  kept.take s ++ List.replicate (8 - kept.length) "0" ++ kept.drop s

/-- The hextets with an empty part in place of the `len` from `s` on. -/
def withoutRun (hextets : List String) (s len : ℕ) : List String :=
  (if s = 0 then [""] else []) ++ hextets.take s ++ [""] ++ hextets.drop (s + len) ++
    (if s + len = hextets.length then [""] else [])

theorem compressHextets_eq (hextets : List String) : compressHextets hextets =
    if 1 < (zeroRuns hextets).bestLen then
      withoutRun hextets (zeroRuns hextets).bestStart (zeroRuns hextets).bestLen
    else hextets := rfl

section

variable {hextets : List String} {s len : ℕ}

theorem filter_ne_empty (h : ∀ text ∈ hextets, text ≠ "") :
    hextets.filter (fun text => decide (text ≠ "")) = hextets :=
  List.filter_eq_self.mpr fun text htext => decide_eq_true (h text htext)

theorem filter_withoutRun (hne : ∀ text ∈ hextets, text ≠ "") :
    (withoutRun hextets s len).filter (fun text => decide (text ≠ "")) =
      hextets.take s ++ hextets.drop (s + len) := by
  have hmark : ∀ p : Prop, ∀ _ : Decidable p,
      (if p then [""] else []).filter (fun text => decide (text ≠ "")) = [] := fun p _ => by
    split_ifs <;> rfl
  have htake := filter_ne_empty fun text ht => hne text (List.mem_of_mem_take (i := s) ht)
  have hdrop := filter_ne_empty fun text ht => hne text (List.mem_of_mem_drop (i := s + len) ht)
  unfold withoutRun
  rw [List.filter_append, List.filter_append, List.filter_append, List.filter_append, hmark, hmark,
    htake, hdrop, List.append_nil, List.nil_append]
  simp

/-- The run was after the parts before the first empty one. -/
theorem length_takeWhile_withoutRun (hne : ∀ text ∈ hextets, text ≠ "") (hs : s ≤ hextets.length) :
    ((withoutRun hextets s len).takeWhile fun text => decide (text ≠ "")).length = s := by
  unfold withoutRun
  by_cases h0 : s = 0
  · rw [if_pos h0, h0]
    rfl
  · have hkept : ∀ text ∈ hextets.take s, decide (text ≠ "") = true := fun text ht =>
      decide_eq_true (hne text (List.mem_of_mem_take ht))
    rw [if_neg h0, List.nil_append, List.append_assoc, List.append_assoc,
      List.takeWhile_append_of_pos hkept]
    simp [hs]

theorem expandHextets_withoutRun (h8 : hextets.length = 8) (hne : ∀ text ∈ hextets, text ≠ "")
    (hle : s + len ≤ hextets.length)
    (hzeros : ∀ k, s ≤ k → k < s + len → hextets[k]? = some "0") :
    expandHextets (withoutRun hextets s len) = hextets := by
  have hlength : (hextets.take s).length = s := by
    rw [List.length_take]
    omega
  have hmissing : 8 - (hextets.take s ++ hextets.drop (s + len)).length = len := by
    rw [List.length_append, hlength, List.length_drop]
    omega
  unfold expandHextets
  dsimp only
  rw [filter_withoutRun hne, length_takeWhile_withoutRun hne (by omega), hmissing,
    List.take_left' hlength, List.drop_left' hlength]
  exact eq_around_zeros hle hzeros

theorem expandHextets_compressHextets (h8 : hextets.length = 8)
    (hne : ∀ text ∈ hextets, text ≠ "") : expandHextets (compressHextets hextets) = hextets := by
  have htracks := tracks_zeroRuns hextets
  rw [compressHextets_eq]
  by_cases hlen : 1 < (zeroRuns hextets).bestLen
  · rw [if_pos hlen]
    exact expandHextets_withoutRun h8 hne htracks.best_le htracks.best
  · have htake : hextets.takeWhile (fun text => decide (text ≠ "")) = hextets :=
      List.takeWhile_eq_self_iff.mpr fun text ht => decide_eq_true (hne text ht)
    rw [if_neg hlen]
    unfold expandHextets
    dsimp only
    rw [htake, filter_ne_empty hne]
    simp [h8]

/-- A compressed address has some part. -/
theorem compressHextets_ne_nil (h : hextets ≠ []) : compressHextets hextets ≠ [] := by
  rw [compressHextets_eq]
  split_ifs
  · simp [withoutRun]
  · exact h

/-- The parts are hextets or empty. -/
theorem mem_compressHextets {text : String} (h : text ∈ compressHextets hextets) :
    text = "" ∨ text ∈ hextets := by
  rw [compressHextets_eq] at h
  split_ifs at h
  · simp only [withoutRun, List.mem_append, List.mem_singleton, List.mem_ite_nil_right] at h
    rcases h with (((⟨-, h⟩ | h) | h) | h) | ⟨-, h⟩
    · exact Or.inl h
    · exact Or.inr (List.mem_of_mem_take h)
    · exact Or.inl h
    · exact Or.inr (List.mem_of_mem_drop h)
    · exact Or.inl h
  · exact Or.inr h

end

/-! ### Texts -/

section

variable {sep : String} {c : Char} {xs ys : List String}

theorem mem_intercalate : ∀ {xs : List String}, c ∈ (sep.intercalate xs).toList →
    c ∈ sep.toList ∨ ∃ text ∈ xs, c ∈ text.toList
  | [], h => by simp at h
  | [x], h => by
    rw [String.intercalate_singleton] at h
    exact Or.inr ⟨x, List.mem_cons_self, h⟩
  | x :: y :: xs, h => by
    rw [String.intercalate_cons_cons, String.toList_append, String.toList_append,
      List.mem_append, List.mem_append] at h
    rcases h with (h | h) | h
    · exact Or.inr ⟨x, List.mem_cons_self, h⟩
    · exact Or.inl h
    · refine (mem_intercalate h).imp_right fun ⟨text, htext, hc⟩ => ?_
      exact ⟨text, List.mem_cons_of_mem x htext, hc⟩

/-- Texts between separators, which they do not have, are told apart. -/
theorem intercalate_injOn (hsep : sep.toList = [c]) (hxs : xs ≠ []) (hys : ys ≠ [])
    (hx : ∀ text ∈ xs, c ∉ text.toList) (hy : ∀ text ∈ ys, c ∉ text.toList)
    (h : sep.intercalate xs = sep.intercalate ys) : xs = ys := by
  have hsplit : ∀ {zs : List String}, zs ≠ [] → (∀ text ∈ zs, c ∉ text.toList) →
      (sep.intercalate zs).toList.splitOn c = zs.map String.toList := by
    intro zs hzs hz
    rw [String.toList_intercalate, hsep]
    refine List.splitOn_intercalate c ?_ (List.map_eq_nil_iff.not.mpr hzs)
    intro l hl
    obtain ⟨text, htext, rfl⟩ := List.mem_map.mp hl
    exact hz text htext
  have hmap : xs.map String.toList = ys.map String.toList := by
    rw [← hsplit hxs hx, ← hsplit hys hy, h]
  exact List.map_injective_iff.mpr (fun _ _ => String.toList_inj.mp) hmap

end

/-- A number in hexadecimal. -/
def hexText (h : ℕ) : String := String.ofList (Nat.toDigits 16 h)

theorem isHexDigit_of_mem_hexText {h : ℕ} {c : Char} (hc : c ∈ (hexText h).toList) :
    isHexDigit c = true := by
  rw [hexText, String.toList_ofList] at hc
  exact isHexDigit_of_mem_toDigits (by norm_num) le_rfl h c hc

theorem isHexDigit_of_mem_toString {n : ℕ} {c : Char} (hc : c ∈ (toString n).toList) :
    isHexDigit c = true := by
  rw [Nat.toString_eq_ofList_toDigits, String.toList_ofList] at hc
  exact isHexDigit_of_mem_toDigits (by norm_num) (by norm_num) n c hc

theorem hexText_injective : Function.Injective hexText := fun _ _ h =>
  toDigits_injective (by norm_num) le_rfl (String.ofList_inj.mp h)

theorem toString_injective : Function.Injective (toString : ℕ → String) := fun _ _ h =>
  toDigits_injective (b := 10) (by norm_num) (by norm_num) (String.ofList_inj.mp h)

theorem toString_ofNat (n : ℕ) : toString (Int.ofNat n) = toString n := rfl

theorem toString_negSucc (n : ℕ) : toString (Int.negSucc n) = "-" ++ toString (n + 1) := rfl

/-- The characters of an integer. -/
theorem mem_toString_int {n : ℤ} {c : Char} (hc : c ∈ (toString n).toList) :
    c = '-' ∨ isHexDigit c = true := by
  cases n with
  | ofNat n => exact .inr (isHexDigit_of_mem_toString hc)
  | negSucc n =>
    rw [toString_negSucc, String.toList_append, List.mem_append] at hc
    rcases hc with hc | hc
    · exact .inl (List.mem_singleton.mp hc)
    · exact .inr (isHexDigit_of_mem_toString hc)

theorem toString_int_ne_empty {n : ℤ} : toString n ≠ "" := by
  cases n with
  | ofNat n =>
    rw [toString_ofNat, Nat.toString_eq_ofList_toDigits]
    intro h
    have hnil := congrArg String.toList h
    rw [String.toList_ofList] at hnil
    exact Nat.toDigits_ne_nil hnil
  | negSucc n =>
    intro h
    have hlength := congrArg String.length h
    rw [toString_negSucc, String.length_append] at hlength
    simp at hlength

theorem toString_ofNat_ne_negSucc (n m : ℕ) :
    toString (Int.ofNat n) ≠ toString (Int.negSucc m) := by
  intro h
  have hdash : '-' ∈ (toString n).toList := by
    rw [← toString_ofNat, h, toString_negSucc, String.toList_append]
    exact List.mem_append_left _ List.mem_cons_self
  exact absurd (isHexDigit_of_mem_toString hdash) (by decide)

theorem toString_int_injective : Function.Injective (toString : ℤ → String) := by
  intro n m h
  cases n with
  | ofNat n =>
    cases m with
    | ofNat m => rw [toString_injective h]
    | negSucc m => exact absurd h (toString_ofNat_ne_negSucc n m)
  | negSucc n =>
    cases m with
    | ofNat m => exact absurd h.symm (toString_ofNat_ne_negSucc m n)
    | negSucc m =>
      rw [toString_negSucc, toString_negSucc] at h
      have hsucc := toString_injective ((String.append_right_inj "-").mp h)
      rw [Nat.succ.inj hsucc]
theorem hexText_ne_empty {h : ℕ} : hexText h ≠ "" := by
  intro he
  have hnil := congrArg String.toList he
  rw [hexText, String.toList_ofList] at hnil
  exact Nat.toDigits_ne_nil hnil

def separator : Version → Char
  | .v4 => '.'
  | .v6 => ':'

/-- The characters of an address without its scope id. -/
theorem mem_stringFromIpInt {v : Version} {n : ℕ} {c : Char}
    (h : c ∈ (stringFromIpInt v n).toList) :
    isHexDigit c = true ∨ c = separator v := by
  cases v with
  | v4 =>
    rcases mem_intercalate h with hc | ⟨text, htext, hc⟩
    · exact Or.inr (List.mem_singleton.mp hc)
    · obtain ⟨k, -, rfl⟩ := List.mem_map.mp htext
      exact Or.inl (isHexDigit_of_mem_toString hc)
  | v6 =>
    rcases mem_intercalate h with hc | ⟨text, htext, hc⟩
    · exact Or.inr (List.mem_singleton.mp hc)
    · rcases mem_compressHextets htext with rfl | htext
      · simp at hc
      · obtain ⟨k, -, rfl⟩ := List.mem_map.mp htext
        exact Or.inl (isHexDigit_of_mem_hexText hc)

theorem notMem_stringFromIpInt {v : Version} {n : ℕ} {c : Char} (hhex : isHexDigit c = false)
    (hsep : c ≠ separator v) : c ∉ (stringFromIpInt v n).toList := by
  intro hc
  rcases mem_stringFromIpInt hc with h | h
  · rw [hhex] at h
    cases h
  · exact hsep h

theorem stringFromIpInt_v4 (n : ℕ) :
    stringFromIpInt .v4 n = ".".intercalate ((groupsOf 256 n 4).map toString) := rfl

theorem stringFromIpInt_v6 (n : ℕ) : stringFromIpInt .v6 n =
    ":".intercalate (compressHextets ((groupsOf 65536 n 8).map hexText)) := rfl

theorem stringFromIpInt_injOn {v : Version} {n m : ℕ} (hn : n < 2 ^ v.bits) (hm : m < 2 ^ v.bits)
    (h : stringFromIpInt v n = stringFromIpInt v m) : n = m := by
  cases v with
  | v4 =>
    have hne : ∀ k, (groupsOf 256 k 4).map toString ≠ [] := fun k hnil => by
      have hlen := congrArg List.length hnil
      rw [List.length_map, length_groupsOf] at hlen
      cases hlen
    have hsep : ∀ k, ∀ text ∈ (groupsOf 256 k 4).map toString, '.' ∉ text.toList :=
      fun k text htext hc => by
        obtain ⟨d, -, rfl⟩ := List.mem_map.mp htext
        exact absurd (isHexDigit_of_mem_toString hc) (by decide)
    rw [stringFromIpInt_v4, stringFromIpInt_v4] at h
    have hparts := intercalate_injOn (by rfl) (hne n) (hne m) (hsep n) (hsep m) h
    have hgroups := List.map_injective_iff.mpr toString_injective hparts
    have hpow : 2 ^ Version.v4.bits = 256 ^ 4 := by norm_num [Version.bits]
    exact groupsOf_injOn (hn.trans_eq hpow) (hm.trans_eq hpow) hgroups
  | v6 =>
    have h8 : ∀ k, ((groupsOf 65536 k 8).map hexText).length = 8 := fun k => by
      rw [List.length_map, length_groupsOf]
    have hne : ∀ k, ∀ text ∈ (groupsOf 65536 k 8).map hexText, text ≠ "" := fun k text htext => by
      obtain ⟨d, -, rfl⟩ := List.mem_map.mp htext
      exact hexText_ne_empty
    have hnil : ∀ k, compressHextets ((groupsOf 65536 k 8).map hexText) ≠ [] := fun k =>
      compressHextets_ne_nil fun hnil => by
        have hlen := h8 k
        rw [hnil] at hlen
        cases hlen
    have hsep : ∀ k, ∀ text ∈ compressHextets ((groupsOf 65536 k 8).map hexText),
        ':' ∉ text.toList := fun k text htext hc => by
      rcases mem_compressHextets htext with rfl | htext
      · simp at hc
      · obtain ⟨d, -, rfl⟩ := List.mem_map.mp htext
        exact absurd (isHexDigit_of_mem_hexText hc) (by decide)
    rw [stringFromIpInt_v6, stringFromIpInt_v6] at h
    have hparts := intercalate_injOn (by rfl) (hnil n) (hnil m) (hsep n) (hsep m) h
    have hexpand := congrArg expandHextets hparts
    rw [expandHextets_compressHextets (h8 n) (hne n),
      expandHextets_compressHextets (h8 m) (hne m)] at hexpand
    have hgroups := List.map_injective_iff.mpr hexText_injective hexpand
    have hpow : 2 ^ Version.v6.bits = 65536 ^ 8 := by norm_num [Version.bits]
    exact groupsOf_injOn (hn.trans_eq hpow) (hm.trans_eq hpow) hgroups

/-- There are points in an IPv4 address and none in an IPv6 address. -/
theorem version_of_stringFromIpInt {v w : Version} {n m : ℕ}
    (h : stringFromIpInt v n = stringFromIpInt w m) : v = w := by
  have hpoint : ∀ k, '.' ∈ (stringFromIpInt .v4 k).toList := fun k => by
    simp [stringFromIpInt, groupsOf, List.range_succ]
  have hnone : ∀ k, '.' ∉ (stringFromIpInt .v6 k).toList := fun k =>
    notMem_stringFromIpInt (by decide) (by decide)
  cases v with
  | v4 =>
    cases w with
    | v4 => rfl
    | v6 => exact absurd (h ▸ hpoint n) (hnone m)
  | v6 =>
    cases w with
    | v4 => exact absurd (h ▸ hpoint m) (hnone n)
    | v6 => rfl

theorem percent_notMem {v : Version} {n : ℕ} : '%' ∉ (stringFromIpInt v n).toList :=
  notMem_stringFromIpInt (by decide) (by cases v <;> decide)

/-- A text up to a percent sign, if there is one. -/
theorem takeWhile_percent {s t : List Char} (hs : '%' ∉ s) (ht : t = [] ∨ t.head? = some '%') :
    (s ++ t).takeWhile (· ≠ '%') = s ∧ (s ++ t).dropWhile (· ≠ '%') = t := by
  have hall : ∀ c ∈ s, decide (c ≠ '%') = true := fun c hc =>
    decide_eq_true fun he => hs (he ▸ hc)
  rw [List.takeWhile_append_of_pos hall, List.dropWhile_append_of_pos hall]
  rcases ht with rfl | ht
  · exact ⟨List.append_nil s, rfl⟩
  · cases t with
    | nil => cases ht
    | cons c t =>
      cases ht
      exact ⟨List.append_nil s, rfl⟩

/-- The scope id as it is written. -/
def scopeText : Option String → List Char
  | none => []
  | some id => '%' :: id.toList

theorem str_toList (a : IPAddress) :
    a.str.toList = (stringFromIpInt a.version a.ip).toList ++ scopeText a.scopeId := by
  have hne := a.scopeId_ne
  unfold IPAddress.str scopeText
  cases hid : a.scopeId with
  | none => simp
  | some id =>
    have hid : id.isEmpty = false := by
      by_contra he
      rw [hid] at hne
      exact hne (by simpa using he)
    simp [hid]

/-- **Texts of addresses** are distinct. -/
theorem str_injective : Function.Injective IPAddress.str := by
  intro a b h
  have hscope : ∀ id, scopeText id = [] ∨ (scopeText id).head? = some '%' := fun id => by
    cases id with
    | none => exact Or.inl rfl
    | some id => exact Or.inr rfl
  obtain ⟨ha, ha'⟩ := takeWhile_percent (percent_notMem (v := a.version) (n := a.ip))
    (hscope a.scopeId)
  obtain ⟨hb, hb'⟩ := takeWhile_percent (percent_notMem (v := b.version) (n := b.ip))
    (hscope b.scopeId)
  rw [← str_toList] at ha ha' hb hb'
  have htext : stringFromIpInt a.version a.ip = stringFromIpInt b.version b.ip :=
    String.toList_inj.mp (ha.symm.trans (h ▸ hb))
  have hid : scopeText a.scopeId = scopeText b.scopeId := ha'.symm.trans (h ▸ hb')
  have hversion := version_of_stringFromIpInt htext
  have hip : a.ip = b.ip := by
    rw [← hversion] at htext
    exact stringFromIpInt_injOn a.ip_lt (hversion ▸ b.ip_lt) htext
  have hscopeId : a.scopeId = b.scopeId := by
    cases hsa : a.scopeId <;> cases hsb : b.scopeId <;> rw [hsa, hsb] at hid
    · cases hid
    · cases hid
    · rw [String.toList_inj.mp (List.cons.inj hid).2]
  exact IPAddress.ext hversion hip hscopeId

end ScanLedger
