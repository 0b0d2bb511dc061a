import Mathlib.Data.List.TakeWhile
import ZimaScope.Common.Model
import ZimaScope.Query.Resolver

/-! # Process names

The kernel names a process by at most 15 bytes, whatever they are; a rule names it
by text. The two agree on names that are text without blanks around it.
-/

namespace ZimaScope

/-- A name in the kernel's storage, padded with NULs. -/
def padComm (name : List UInt8) : Vector UInt8 16 := Vector.ofFn fun i => name.getD i.val 0

/-- A name the kernel may record. -/
structure KernelName (name : List UInt8) : Prop where
  fits : name.length ≤ 15
  noNul : (0 : UInt8) ∉ name

/-- The bytes are those of a text without blanks around it. -/
def TrimmedText (name : List UInt8) : Prop := ∃ text, textBytes text = name ∧ trim text = text

/-- The bytes of a text that the kernel's storage keeps. -/
def keptBytes (text : String) : List UInt8 := ((textBytes text).take 15).takeWhile (· ≠ 0)

/-- The bytes are those of a text that is not blank. -/
def NonBlankText (name : List UInt8) : Prop :=
  ∃ text, textBytes text = name ∧ ∃ c ∈ text.toList, isWhiteSpace c = false

/-! ## Texts as bytes -/

theorem textBytes_inj {s t : String} : textBytes s = textBytes t ↔ s = t := by
  constructor
  · intro h
    exact String.toByteArray_inj.mp (ByteArray.ext (Array.ext' h))
  · exact congrArg textBytes

theorem textBytes_append (s t : String) : textBytes (s ++ t) = textBytes s ++ textBytes t := by
  change (s.toByteArray ++ t.toByteArray).data.toList = _
  rw [ByteArray.data_append, Array.toList_append]
  rfl

/-- A text is read from its own bytes only. -/
theorem fromUTF8?_eq_some_iff {name : List UInt8} {text : String} :
    String.fromUTF8? ⟨name.toArray⟩ = some text ↔ textBytes text = name := by
  constructor
  · intro h
    unfold String.fromUTF8? at h
    split at h
    · obtain rfl := Option.some.inj h
      rfl
    · cases h
  · rintro rfl
    have hbytes : (⟨(textBytes text).toArray⟩ : ByteArray) = text.toByteArray := rfl
    unfold String.fromUTF8?
    rw [hbytes, dif_pos text.isValidUTF8]
    rfl

theorem exists_dropWhile (p : Char → Bool) (cs : List Char) : ∃ a, cs = a ++ cs.dropWhile p :=
  ⟨cs.takeWhile p, List.takeWhile_append_dropWhile.symm⟩

/-- Trimming cuts a text at both ends. -/
theorem exists_trim (s : String) : ∃ a b, s = a ++ trim s ++ b := by
  obtain ⟨a, ha⟩ := exists_dropWhile isWhiteSpace s.toList
  obtain ⟨b, hb⟩ := exists_dropWhile isWhiteSpace (s.toList.dropWhile isWhiteSpace).reverse
  refine ⟨String.ofList a, String.ofList b.reverse, ?_⟩
  have hcs : s.toList = a ++ ((s.toList.dropWhile isWhiteSpace).reverse.dropWhile
      isWhiteSpace).reverse ++ b.reverse := by
    rw [List.append_assoc, ← List.reverse_append, ← hb, List.reverse_reverse]
    exact ha
  apply String.toList_inj.mp
  rw [String.toList_append, String.toList_append, String.toList_ofList, String.toList_ofList]
  unfold trim
  rw [String.toList_ofList]
  exact hcs

theorem trim_eq_empty_iff (s : String) :
    trim s = "" ↔ ∀ c ∈ s.toList, isWhiteSpace c = true := by
  unfold trim
  rw [← String.toList_inj, String.toList_ofList]
  simp only [String.toList_empty, List.reverse_eq_nil_iff, List.dropWhile_eq_nil_iff,
    List.mem_reverse]
  constructor
  · intro h
    have hnil : s.toList.dropWhile isWhiteSpace = [] := by
      by_contra hne
      have hhead := List.head_dropWhile_not isWhiteSpace hne
      rw [h _ (List.head_mem hne)] at hhead
      cases hhead
    exact List.dropWhile_eq_nil_iff.mp hnil
  · intro h c hc
    exact h c ((List.dropWhile_sublist _).subset hc)

/-! ## Names in storage -/

theorem toList_padComm {name : List UInt8} (h : name.length ≤ 15) :
    (padComm name).toList = name ++ List.replicate (16 - name.length) 0 := by
  apply List.ext_getElem
  · simp only [Vector.length_toList, List.length_append, List.length_replicate]
    omega
  · intro i hi hi'
    simp only [padComm, Vector.getElem_toList, Vector.getElem_ofFn, List.getElem_append]
    split
    · next hlt => simp [hlt]
    · next hge => simp [List.getElem?_eq_none (Nat.not_lt.mp hge)]

theorem takeWhile_append_nul (name zeros : List UInt8) :
    (name ++ 0 :: zeros).takeWhile (· ≠ 0) = name.takeWhile (· ≠ 0) := by
  induction name with
  | nil => rfl
  | cons b name ih => rw [List.cons_append, List.takeWhile_cons, List.takeWhile_cons, ih]

/-- The name ends where the padding starts. -/
theorem takeWhile_padComm {name : List UInt8} (h : name.length ≤ 15) :
    (padComm name).toList.takeWhile (· ≠ 0) = name.takeWhile (· ≠ 0) := by
  obtain ⟨n, hn⟩ : ∃ n, 16 - name.length = n + 1 := ⟨15 - name.length, by omega⟩
  rw [toList_padComm h, hn, List.replicate_succ, takeWhile_append_nul]

theorem KernelName.takeWhile {name : List UInt8} (h : KernelName name) :
    name.takeWhile (· ≠ 0) = name := by
  rw [List.takeWhile_eq_self_iff]
  intro b hb
  have hne : b ≠ 0 := fun hzero => h.noNul (hzero ▸ hb)
  simpa using hne

theorem padComm_inj {name name' : List UInt8} (h : KernelName name) (h' : KernelName name') :
    padComm name = padComm name' ↔ name = name' := by
  constructor
  · intro heq
    rw [← h.takeWhile, ← h'.takeWhile, ← takeWhile_padComm h.fits, ← takeWhile_padComm h'.fits, heq]
  · exact congrArg padComm

theorem commBytes_eq (text : String) : commBytes text = padComm ((textBytes text).take 15) := by
  unfold commBytes padComm
  congr 1
  funext i
  by_cases hi : i.val < 15
  · simp [hi, textBytes]
  · simp [hi, List.getD]

theorem commText_padComm {name : List UInt8} (h : name.length ≤ 15) : commText (padComm name) =
    trim ((String.fromUTF8? ⟨(name.takeWhile (· ≠ 0)).toArray⟩).getD "") := by
  unfold commText
  rw [takeWhile_padComm h]

/-! ## Round trips -/

theorem stripPrefix_append (literal rest : String) :
    stripPrefix (literal ++ rest) literal = some rest := by
  have hprefix : startsWith (literal ++ rest) literal = true := by
    unfold startsWith
    rw [String.toList_append, List.isPrefixOf_iff_prefix]
    exact List.prefix_append _ _
  unfold stripPrefix
  rw [if_pos hprefix, String.toList_append, ← String.length_toList, List.drop_left,
    String.ofList_toList]

section RoundTrip

variable {name : List UInt8} (h : KernelName name)

include h

theorem commText_of_text {text : String} (htext : textBytes text = name) :
    commText (padComm name) = trim text := by
  rw [commText_padComm h.fits, h.takeWhile, fromUTF8?_eq_some_iff.mpr htext]
  rfl

/-- A name that is text stays itself exactly when nothing is trimmed of it. -/
theorem commBytes_trim_iff {text : String} (htext : textBytes text = name) :
    commBytes (trim text) = padComm name ↔ trim text = text := by
  obtain ⟨a, b, hab⟩ := exists_trim text
  have hbytes : name = textBytes a ++ textBytes (trim text) ++ textBytes b := by
    rw [← htext, ← textBytes_append, ← textBytes_append, ← hab]
  have htrimmed : KernelName (textBytes (trim text)) := by
    have hfits := h.fits
    have hnul := h.noNul
    rw [hbytes] at hfits hnul
    simp only [List.length_append, List.mem_append, not_or] at hfits hnul
    exact ⟨by omega, hnul.1.2⟩
  rw [commBytes_eq, List.take_of_length_le htrimmed.fits, padComm_inj htrimmed h, ← htext,
    textBytes_inj]

theorem comm_round_trip : commBytes (commText (padComm name)) = padComm name ↔
    TrimmedText name := by
  cases hread : String.fromUTF8? ⟨name.toArray⟩ with
  | none =>
    have hno : ∀ text, textBytes text ≠ name := by
      intro text htext
      rw [fromUTF8?_eq_some_iff.mpr htext] at hread
      cases hread
    have hempty : KernelName [] := ⟨by decide, List.not_mem_nil⟩
    have hblank : commText (padComm name) = "" := by
      rw [commText_padComm h.fits, h.takeWhile, hread]
      rfl
    constructor
    · intro hsame
      rw [hblank, show commBytes "" = padComm [] from commBytes_eq "", padComm_inj hempty h] at hsame
      exact absurd hsame (hno "")
    · rintro ⟨text, htext, -⟩
      exact absurd htext (hno text)
  | some text =>
    have htext := fromUTF8?_eq_some_iff.mp hread
    rw [commText_of_text h htext, commBytes_trim_iff h htext]
    constructor
    · exact fun htrim => ⟨text, htext, htrim⟩
    · rintro ⟨text', htext', htrim⟩
      obtain rfl := textBytes_inj.mp (htext'.trans htext.symm)
      exact htrim

/-- A rule made of the text of a name matches the name exactly when the text is all of it. -/
theorem procComm_rule (hne : name ≠ []) (ev : Evidence) :
    ev.application ("proc:comm:" ++ commText (padComm name)) =
        .ofTargets [.appComm (padComm name)] ↔ TrimmedText name := by
  unfold Evidence.application
  rw [stripPrefix_append]
  simp only
  split
  · next hblank =>
    constructor
    · intro hrule
      cases congrArg Resolution.coverage hrule
    · rintro ⟨text, htext, htrim⟩
      rw [commText_of_text h htext, htrim] at hblank
      subst hblank
      exact absurd htext.symm hne
  · rw [← comm_round_trip h]
    constructor
    · intro hrule
      have hmem : MatchTarget.appComm (padComm name) ∈
          (Resolution.ofTargets [.appComm (commBytes (commText (padComm name)))]).targets := by
        rw [hrule]
        simp
      simpa [eq_comm] using hmem
    · intro hsame
      rw [hsame]

end RoundTrip

/-- The text that comes back of a name is blank only if what was kept of it is not text, or blank. -/
theorem commText_commBytes_iff (text : String) :
    commText (commBytes text) ≠ "" ↔ NonBlankText (keptBytes text) := by
  rw [commBytes_eq, commText_padComm (List.length_take_le 15 _)]
  change trim ((String.fromUTF8? ⟨(keptBytes text).toArray⟩).getD "") ≠ "" ↔ _
  cases hread : String.fromUTF8? ⟨(keptBytes text).toArray⟩ with
  | none =>
    constructor
    · intro hne
      exact absurd rfl hne
    · rintro ⟨kept, hkept, -⟩
      rw [fromUTF8?_eq_some_iff.mpr hkept] at hread
      cases hread
  | some kept =>
    have hkept := fromUTF8?_eq_some_iff.mp hread
    have hblank : trim kept ≠ "" ↔ ∃ c ∈ kept.toList, isWhiteSpace c = false := by
      rw [Ne, trim_eq_empty_iff]
      simp
    rw [Option.getD_some, hblank]
    constructor
    · exact fun hc => ⟨kept, hkept, hc⟩
    · rintro ⟨kept', hkept', hc⟩
      obtain rfl := textBytes_inj.mp (hkept'.trans hkept.symm)
      exact hc

/-- Names round-trip exactly when they are text without blanks around it, and so do the
rules made of them; a text comes back exactly when what fits of it is text and not blank. -/
theorem comm_round_trips_iff {name : List UInt8} (h : KernelName name) (ev : Evidence)
    (text : String) :
    (commBytes (commText (padComm name)) = padComm name ↔ TrimmedText name) ∧
      (name ≠ [] → (ev.application ("proc:comm:" ++ commText (padComm name)) =
        .ofTargets [.appComm (padComm name)] ↔ TrimmedText name)) ∧
      (commText (commBytes text) ≠ "" ↔ NonBlankText (keptBytes text)) :=
  ⟨comm_round_trip h, fun hne => procComm_rule h hne ev, commText_commBytes_iff text⟩

/-- A name of plain letters. -/
theorem nginx_round_trips :
    commBytes (commText (padComm (textBytes "nginx"))) = padComm (textBytes "nginx") ∧
      noEvidence.application ("proc:comm:" ++ commText (padComm (textBytes "nginx"))) =
        .ofTargets [.appComm (padComm (textBytes "nginx"))] ∧
      commText (commBytes "nginx") ≠ "" := by
  have hname : KernelName (textBytes "nginx") := ⟨by decide +kernel, by decide +kernel⟩
  have htext : TrimmedText (textBytes "nginx") := ⟨"nginx", rfl, by decide +kernel⟩
  obtain ⟨hnames, hrules, htexts⟩ := comm_round_trips_iff hname noEvidence "nginx"
  exact ⟨hnames.mpr htext, (hrules (by decide +kernel)).mpr htext,
    htexts.mpr ⟨"nginx", by decide +kernel, 'n', by decide +kernel, by decide⟩⟩

/-- The kernel keeps half of the last letter. -/
def meteo : String := "café-météo-été"

theorem meteo_lost : ¬ ((∀ name, KernelName name →
      commBytes (commText (padComm name)) = padComm name) ∨
    ∀ text, (∃ c ∈ text.toList, isWhiteSpace c = false) → commText (commBytes text) ≠ "") := by
  have hname : KernelName ((textBytes meteo).take 15) := ⟨by decide +kernel, by decide +kernel⟩
  have hlost : commText (commBytes meteo) = "" := by decide +kernel
  rintro (h | h)
  · have hsame := h _ hname
    rw [← commBytes_eq, hlost] at hsame
    revert hsame
    decide +kernel
  · exact h meteo ⟨'c', by decide +kernel, by decide⟩ hlost

end ZimaScope
