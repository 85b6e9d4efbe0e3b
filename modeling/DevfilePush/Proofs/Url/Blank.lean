import DevfilePush.Proofs.Fallible
import DevfilePush.Url.Source

/-!
# Blank files

A file of nothing but blanks is said to hold no records without being looked at further. That is also
what the document says that is read from it, if it is one: there is no token in it, so it is empty.

## Main statements

* `Yaml.Token.eq_nil_of_blank`: there is no token among blanks.
* `Yaml.Document.root_of_blank`: there is nothing in the document of a blank file.
-/

namespace DevfilePush.Yaml

/-- A space, a tab or a line break. -/
def IsBlank (c : Char) : Prop := c = ' ' ∨ c = '\t' ∨ c = '\n'

/-! ## Octets and characters -/

theorem toNat_of_isBlankOctet {octet : UInt8} (h : isBlankOctet octet = true) :
    octet.toNat = 32 ∨ octet.toNat = 9 ∨ octet.toNat = 10 ∨ octet.toNat = 12 ∨ octet.toNat = 13 := by
  simp only [isBlankOctet, Bool.or_eq_true, decide_eq_true_eq] at h
  rcases h with (((rfl | rfl) | rfl) | rfl) | rfl <;> decide

/-- Only the blanks below the other characters of ASCII are encoded by blank octets. -/
theorem blank_of_octets {c : Char} (h : ∀ octet ∈ String.utf8EncodeChar c, isBlankOctet octet = true) :
    IsBlank c ∨ c = '\r' ∨ c = '\x0c' := by
  have hfirst : ∃ octet, octet ∈ String.utf8EncodeChar c ∧
      (octet.toNat = c.toNat ∧ c.toNat ≤ 127 ∨ 192 ≤ octet.toNat) := by
    unfold String.utf8EncodeChar
    dsimp only
    split
    · refine ⟨_, List.mem_cons_self, .inl ⟨?_, ‹_›⟩⟩
      rw [UInt8.toNat_ofNat']
      exact Nat.mod_eq_of_lt (by omega)
    · -- The first octet of a character that takes several is in the upper half.
      split
      · exact ⟨_, List.mem_cons_self, .inr (by rw [UInt8.toNat_ofNat']; omega)⟩
      · split
        · exact ⟨_, List.mem_cons_self, .inr (by rw [UInt8.toNat_ofNat']; omega)⟩
        · exact ⟨_, List.mem_cons_self, .inr (by rw [UInt8.toNat_ofNat']; omega)⟩
  obtain ⟨octet, hmem, hoctet⟩ := hfirst
  have hblank := toNat_of_isBlankOctet (h octet hmem)
  have hc : c.toNat = 32 ∨ c.toNat = 9 ∨ c.toNat = 10 ∨ c.toNat = 12 ∨ c.toNat = 13 := by omega
  have hchar : ∀ d : Char, c.toNat = d.toNat → c = d := fun d => Char.toNat_inj.1
  rcases hc with hc | hc | hc | hc | hc
  · exact .inl (.inl (hchar ' ' hc))
  · exact .inl (.inr (.inl (hchar '\t' hc)))
  · exact .inl (.inr (.inr (hchar '\n' hc)))
  · exact .inr (.inr (hchar '\x0c' hc))
  · exact .inr (.inl (hchar '\r' hc))

/-- Breaks are unified, so no other blanks are left. -/
theorem blank_of_unifyBreaks {before cs : List Char} {afterReturn : Bool}
    (hbefore : ∀ c ∈ before, IsBlank c) (hcs : ∀ c ∈ cs, IsBlank c ∨ c = '\r') :
    ∀ c ∈ unifyBreaks before afterReturn cs, IsBlank c := by
  have feed : ∀ {before}, (∀ c ∈ before, IsBlank c) → ∀ c ∈ '\n' :: before, IsBlank c :=
    fun hbefore => List.forall_mem_cons.2 ⟨.inr (.inr rfl), hbefore⟩
  fun_induction unifyBreaks before afterReturn cs with
  | case1 before => simpa using hbefore
  | case2 before _ rest ih =>
    exact ih (feed hbefore) (List.forall_mem_cons.1 hcs).2
  | case3 before _ rest ih =>
    refine ih ?_ (List.forall_mem_cons.1 hcs).2
    split
    · exact hbefore
    · exact feed hbefore
  | case4 before _ rest ih => exact ih (feed hbefore) (List.forall_mem_cons.1 hcs).2
  | case5 before _ c rest hreturn _ _ ih =>
    obtain ⟨hc, hrest⟩ := List.forall_mem_cons.1 hcs
    exact ih (List.forall_mem_cons.2 ⟨hc.resolve_right hreturn, hbefore⟩) hrest

/-- The characters of blank octets, if they are printable. -/
theorem blank_of_charsOfBytes {bytes : ByteArray} {cs : List Char}
    (blank : bytes.data.all isBlankOctet = true) (h : charsOfBytes? bytes = some cs) :
    ∀ c ∈ cs, IsBlank c := by
  unfold charsOfBytes? at h
  split at h
  · rename_i text htext
    dsimp only at h
    split at h
    · rename_i hprintable
      obtain rfl := Option.some.inj h
      refine blank_of_unifyBreaks (by simp) fun c hc => ?_
      have hbytes : text.toByteArray = bytes := by
        unfold String.fromUTF8? at htext
        split at htext
        · obtain rfl := Option.some.inj htext
          rfl
        · cases htext
      have hoctets : ∀ octet ∈ String.utf8EncodeChar c, isBlankOctet octet = true := by
        intro octet hoctet
        have hall : (text.toList.flatMap String.utf8EncodeChar).all isBlankOctet = true := by
          rw [← hbytes, ← String.utf8Encode_toList] at blank
          simpa [List.utf8Encode] using blank
        exact List.all_eq_true.1 hall octet (List.mem_flatMap.2 ⟨c, hc, hoctet⟩)
      rcases blank_of_octets hoctets with hblank | rfl | rfl
      · exact .inl hblank
      · exact .inr rfl
      · exact absurd (List.all_eq_true.1 hprintable _ hc) (by decide)
    · cases h
  · cases h

/-! ## Tokens -/

/-- A gap of blanks goes on to the end or to a tab where a key may begin. -/
theorem skipGap_blank {cs : List Char} (blank : ∀ c ∈ cs, IsBlank c) (mark : Mark) :
    ∃ rest mark', Scanner.skipGap false true false mark cs = (rest, mark', true) ∧
      (rest = [] ∨ ∃ more, rest = '\t' :: more) := by
  induction cs generalizing mark with
  | nil => exact ⟨[], mark, rfl, .inl rfl⟩
  | cons c cs ih =>
    obtain ⟨hc, hcs⟩ := List.forall_mem_cons.1 blank
    rcases hc with rfl | rfl | rfl
    · exact ih hcs _
    · exact ⟨_, mark, rfl, .inr ⟨cs, rfl⟩⟩
    · exact ih hcs _

/-- No token begins with a tab. -/
theorem takeToken_tab {s : Scanner} {more : List Char} (h : s.rest = '\t' :: more) :
    s.takeToken '\t' more = s.refuse "no token begins with this character" := by
  simp [Scanner.takeToken, Scanner.beginsPlain, atDocumentMark, h]

/-- There is no token among blanks. -/
theorem Token.eq_nil_of_blank {cs : List Char} {tokens : List Token} (blank : ∀ c ∈ cs, IsBlank c)
    (h : ofChars cs = .ok tokens) : tokens = [] := by
  obtain ⟨rest, mark, hskip, hrest⟩ := skipGap_blank blank .start
  have hnext : (Scanner.start cs).nextToken =
      .ok { Scanner.start cs with rest, mark, keyAllowed := true } := by
    unfold Scanner.nextToken
    rw [show Scanner.skipGap (Scanner.start cs).inFlow (Scanner.start cs).keyAllowed false
      (Scanner.start cs).mark (Scanner.start cs).rest = (rest, mark, true) from hskip]
    rfl
  unfold ofChars at h
  cases hlast : Scanner.takeTokens (cs.length + 1) (Scanner.start cs) with
  | error fault =>
    rw [hlast] at h
    cases h
  | ok last =>
    rw [hlast] at h
    obtain rfl := Except.ok.inj h
    obtain ⟨s, hs, hlast⟩ := Except.bind_ok_iff.1 hlast
    obtain rfl := Except.ok.inj (hnext.symm.trans hs)
    rcases hrest with rfl | ⟨more, rfl⟩
    · obtain rfl := Except.ok.inj hlast
      rfl
    · obtain ⟨s, htake, -⟩ := Except.bind_ok_iff.1 hlast
      rw [takeToken_tab rfl] at htake
      cases htake

/-- There is nothing in the document of a blank file. -/
theorem Document.root_of_blank {bytes : ByteArray} {d : Document}
    (blank : bytes.data.all isBlankOctet = true) (h : ofBytes bytes = .ok d) : d.root = .nothing := by
  unfold ofBytes at h
  split at h
  · cases h
  · rename_i cs hcs
    obtain ⟨tokens, htokens, h⟩ := Except.bind_ok_iff.1 h
    obtain rfl := Token.eq_nil_of_blank (blank_of_charsOfBytes blank hcs) htokens
    obtain ⟨events, hevents, h⟩ := Except.bind_ok_iff.1 h
    obtain rfl : events = [] := (Except.ok.inj hevents).symm
    obtain rfl := Except.ok.inj h
    rfl

end DevfilePush.Yaml
