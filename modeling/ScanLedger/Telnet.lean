/-
# Telnet negotiation

`_decode` of `app/modules/service_detect.py` reads the bytes of a banner as UTF-8
and puts U+FFFD for what is not. The negotiation of a telnet server begins with
bytes that never are, and the last entry of the table looks for the characters
with the same numbers, so it is not found in any decoded negotiation: the
service is named only where another entry names one (`namesTelnet_iff`).

Key definitions: `decodeBanner`, `Negotiates`, `NamesTelnet`.
Key theorems: `search_telnet_eq_none`, `namesTelnet_iff`.
-/
import ScanLedger.Fingerprints
import ScanLedger.Lib.Utf8

namespace ScanLedger

open Regex

/-- `_decode`. -/
def decodeBanner (raw : List UInt8) : String := String.ofList (Utf8.decode raw)

/-- IAC, and one of WILL, WONT, DO and DONT. -/
def Negotiates (raw : List UInt8) : Prop :=
  raw[0]? = some 0xFF ∧ ∃ command ∈ raw[1]?, 0xFB ≤ command ∧ command ≤ 0xFE

section

variable (u : CharTables)

/-- The banner is identified, and as telnet unless an earlier entry is found. -/
def NamesTelnet (raw : List UInt8) (port : ℤ) : Prop :=
  ∃ guess, identifyFromBanner u (decodeBanner raw) port = some guess ∧
    (guess.service = "telnet" ∨
      ∃ entry ∈ BannerEntry.telnet.earlier, (entry.search u (decodeBanner raw)).isSome)

variable {u}

/-- The telnet entry is found at the start of a text, after one character only. -/
theorem search_telnet_eq_none {banner : String} (h : banner.toList.head? ≠ some 'ÿ') :
    BannerEntry.telnet.search u banner = none := by
  unfold BannerEntry.search
  rw [search_eq_none, find_eq_none]
  intro pre s hsplit
  by_contra hne
  obtain ⟨m, hm⟩ := List.exists_mem_of_ne_nil _ hne
  obtain ⟨m₁, h₁, m₂, h₂, -⟩ := mem_run_seqs.mp hm
  obtain ⟨hstart, rfl⟩ := mem_run_look.mp h₁
  obtain ⟨m₃, h₃, -⟩ := mem_run_seqs.mp h₂
  obtain ⟨c, hc, hs, -⟩ := mem_run_one.mp h₃
  have hpre : pre = [] := by
    cases pre with
    | nil => rfl
    | cons a pre => simp [after] at hstart
  have hiac : c = 'ÿ' := by simpa using hc
  rw [hsplit, hpre, List.nil_append] at h
  rw [hiac] at hs
  apply h
  rw [show s = 'ÿ' :: m₃.rest from hs]
  rfl

/-- The first byte of a negotiation is replaced. -/
theorem head_decodeBanner {raw : List UInt8} (h : Negotiates raw) :
    (decodeBanner raw).toList.head? = some Utf8.replacement := by
  obtain ⟨hiac, -⟩ := h
  obtain ⟨bytes, rfl⟩ : ∃ bytes, raw = 0xFF :: bytes := by
    cases raw with
    | nil => cases hiac
    | cons b bytes => exact ⟨bytes, by rw [Option.some.inj hiac]⟩
  unfold decodeBanner
  rw [String.toList_ofList]
  rfl

/-- **Telnet negotiation** is identified exactly when an entry before that of
telnet is found in what it decodes to. -/
theorem namesTelnet_iff {raw : List UInt8} (port : ℤ) (h : Negotiates raw) :
    NamesTelnet u raw port ↔
      ∃ entry ∈ BannerEntry.telnet.earlier, (entry.search u (decodeBanner raw)).isSome := by
  have hnone : BannerEntry.telnet.search u (decodeBanner raw) = none := by
    apply search_telnet_eq_none
    rw [head_decodeBanner h]
    decide
  constructor
  · rintro ⟨guess, hguess, -⟩
    obtain ⟨entry, m, hentry, -⟩ := identifyFromBanner_eq_some.mp hguess
    have hne : entry ≠ .telnet := by
      rintro rfl
      have hfound := hentry.found
      rw [hnone] at hfound
      cases hfound
    refine ⟨entry, ?_, ?_⟩
    · cases entry with
      | telnet => exact absurd rfl hne
      | _ => decide
    · rw [hentry.found]
      rfl
  · rintro ⟨entry, hearlier, hfound⟩
    have hsome : identifyFromBanner u (decodeBanner raw) port ≠ none := by
      intro hnothing
      rw [identifyFromBanner_eq_none.mp hnothing entry] at hfound
      cases hfound
    obtain ⟨guess, hguess⟩ := Option.ne_none_iff_exists'.mp hsome
    exact ⟨guess, hguess, .inr ⟨entry, hearlier, hfound⟩⟩

end

/-- DO TERMINAL-TYPE. -/
def terminalType : List UInt8 := [0xFF, 0xFD, 0x18]

theorem negotiates_terminalType : Negotiates terminalType := ⟨rfl, 0xFD, rfl, by decide, by decide⟩

theorem namesTelnet_terminalType : NamesTelnet asciiTables terminalType 23 ↔
    ∃ entry ∈ BannerEntry.telnet.earlier,
      (entry.search asciiTables (decodeBanner terminalType)).isSome :=
  namesTelnet_iff 23 negotiates_terminalType

/-- The server that asks for the type of the terminal is not identified. -/
theorem not_namesTelnet : ¬ ∀ (u : CharTables) (raw : List UInt8) (port : ℤ), Negotiates raw →
    NamesTelnet u raw port := by
  intro h
  obtain ⟨guess, hguess, -⟩ := h asciiTables terminalType 23 negotiates_terminalType
  have hnone : identifyFromBanner asciiTables (decodeBanner terminalType) 23 = none := by
    decide +kernel
  rw [hnone] at hguess
  cases hguess

end ScanLedger
