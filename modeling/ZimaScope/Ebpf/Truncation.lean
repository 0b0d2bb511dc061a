import Mathlib.Data.List.Infix
import ZimaScope.Ebpf.Bounds
import ZimaScope.Ebpf.Dns

/-! # Truncated payloads

What the DNS and TLS parsers lose when a payload is cut: a cut response yields a
beginning of what the whole one yields, and a cut ClientHello its name or none.
-/

namespace ZimaScope

/-- What `x` yields, `y` yields too. -/
def CutOf {α : Type} (x y : Option α) : Prop := ∀ a, x = some a → y = some a

namespace CutOf

variable {α β : Type} {x y : Option α} {f g : α → Option β}

protected theorem refl (x : Option α) : CutOf x x := fun _ h => h

theorem bind (hx : CutOf x y) (hf : ∀ a, CutOf (f a) (g a)) : CutOf (x.bind f) (y.bind g) := by
  intro b h
  obtain ⟨a, ha, hb⟩ := Option.bind_eq_some_iff.mp h
  exact Option.bind_eq_some_iff.mpr ⟨a, hx a ha, hf a b hb⟩

end CutOf

theorem cutOf_guard {c d : Prop} [Decidable c] [Decidable d] (h : c → d) :
    CutOf (guard c : Option Unit) (guard d) := by
  intro _ hc
  rw [Option.guard_eq_some'] at *
  exact h hc

section Cut

variable {cursor : PacketCursor} {stop stop' : ℕ}

theorem within_le (h : stop ≤ stop') {offset len : ℕ} (hinside : within offset len stop) :
    within offset len stop' := by
  rw [within_iff] at *
  omega

theorem readQuestionName_cutOf (h : stop ≤ stop') (labels p : ℕ) (name : List UInt8) :
    CutOf (readQuestionName cursor stop labels p name) (readQuestionName cursor stop' labels p name) := by
  induction labels generalizing p name with
  | zero => exact CutOf.refl _
  | succ labels ih =>
    unfold readQuestionName
    apply CutOf.bind (cutOf_guard (within_le h))
    intro _
    apply CutOf.bind (CutOf.refl _)
    intro labelLen
    simp only
    split
    · exact CutOf.refl _
    · apply CutOf.bind (cutOf_guard (And.imp_right (And.imp_right (within_le h))))
      intro _
      apply CutOf.bind (CutOf.refl _)
      intro _
      apply CutOf.bind (CutOf.refl _)
      intro _
      apply CutOf.bind (CutOf.refl _)
      intro label
      exact ih _ _

theorem skipAnswerName_cutOf (h : stop ≤ stop') (labels p : ℕ) :
    CutOf (skipAnswerName cursor stop labels p) (skipAnswerName cursor stop' labels p) := by
  induction labels generalizing p with
  | zero => exact CutOf.refl _
  | succ labels ih =>
    unfold skipAnswerName
    apply CutOf.bind (cutOf_guard (within_le h))
    intro _
    apply CutOf.bind (CutOf.refl _)
    intro labelLen
    simp only
    split
    · exact CutOf.refl _
    · split
      · apply CutOf.bind (cutOf_guard (within_le h))
        intro _
        exact CutOf.refl _
      · apply CutOf.bind (cutOf_guard (And.imp_right (within_le h)))
        intro _
        exact ih _

theorem readRecord_cutOf (h : stop ≤ stop') (p : ℕ) :
    CutOf (readRecord cursor stop p) (readRecord cursor stop' p) := by
  unfold readRecord readRecordHeader
  apply CutOf.bind (skipAnswerName_cutOf h _ _)
  intro header
  apply CutOf.bind
  · apply CutOf.bind (cutOf_guard (within_le h))
    intro _
    exact CutOf.refl _
  · intro fields
    apply CutOf.bind (cutOf_guard (within_le h))
    intro _
    exact CutOf.refl _

theorem readResponse_cutOf (h : stop ≤ stop') (offset : ℕ) :
    CutOf (readResponse cursor stop offset) (readResponse cursor stop' offset) := by
  unfold readResponse
  apply CutOf.bind (cutOf_guard (within_le h))
  intro _
  apply CutOf.bind (CutOf.refl _)
  intro flags
  apply CutOf.bind (CutOf.refl _)
  intro _
  apply CutOf.bind (CutOf.refl _)
  intro questions
  apply CutOf.bind (CutOf.refl _)
  intro _
  apply CutOf.bind (CutOf.refl _)
  intro answers
  apply CutOf.bind (CutOf.refl _)
  intro _
  apply CutOf.bind (readQuestionName_cutOf h _ _ _)
  intro question
  apply CutOf.bind (cutOf_guard (And.imp_right (within_le h)))
  intro _
  exact CutOf.refl _

theorem readRecords_begin (h : stop ≤ stop') (n p : ℕ) :
    readRecords cursor stop n p <+: readRecords cursor stop' n p := by
  induction n generalizing p with
  | zero => exact List.prefix_refl _
  | succ n ih =>
    unfold readRecords
    split
    · next record q hrecord =>
      rw [readRecord_cutOf h p _ hrecord]
      exact (List.prefix_cons_inj record).mpr (ih q)
    · exact List.nil_prefix

theorem parseDnsResponse_begin (h : stop ≤ stop') (offset : ℕ) :
    parseDnsResponse cursor stop offset <+: parseDnsResponse cursor stop' offset := by
  rw [parseDnsResponse_eq, parseDnsResponse_eq]
  cases hread : readResponse cursor stop offset with
  | none => exact List.nil_prefix
  | some response =>
    rw [readResponse_cutOf h offset _ hread]
    exact (((readRecords_begin h _ _).filterMap _).take _).map _

/-- The comparisons that are made hold the more the more there is of the payload. -/
theorem extractTlsSni_cutOf (h : stop ≤ stop') (offset : ℕ) :
    CutOf (extractTlsSni cursor offset stop) (extractTlsSni cursor offset stop') := by
  intro name hname
  obtain ⟨layout, hat, hchecked, hlayout⟩ := extractTlsSni_eq_some.mp hname
  apply extractTlsSni_eq_some.mpr
  refine ⟨layout, hat, ?_, hlayout⟩
  exact { hchecked with
    recordStart := hchecked.recordStart.trans h
    record := hchecked.record.trans h
    handshake := hchecked.handshake.trans h
    extensions := hchecked.extensions.trans h }

end Cut

/-- Of the first bytes of a payload the DNS parser emits a beginning of what it emits of the whole, and
the TLS parser returns what it returns of the whole or nothing. -/
theorem truncation_loses (data : List UInt8) (offset stop k : ℕ) :
    parseDnsResponse (memoryCursor (data.take k)) (min stop k) offset <+:
        parseDnsResponse (memoryCursor data) stop offset ∧
      (extractTlsSni (memoryCursor (data.take k)) offset (min stop k) = none ∨
        extractTlsSni (memoryCursor (data.take k)) offset (min stop k) =
          extractTlsSni (memoryCursor data) offset stop) := by
  have hsame : SamePayload offset (min stop k) (memoryCursor (data.take k)) (memoryCursor data) := by
    apply samePayload_memoryCursor
    intro i _ hi
    rw [List.getElem?_take_of_lt (by omega)]
  have hle : min stop k ≤ stop := Nat.min_le_left ..
  obtain ⟨hdns, htls, -⟩ := parsers_congr hsame
  rw [hdns, htls]
  constructor
  · exact parseDnsResponse_begin hle offset
  · cases hname : extractTlsSni (memoryCursor data) offset (min stop k) with
    | none => exact Or.inl rfl
    | some name => exact Or.inr (extractTlsSni_cutOf hle offset name hname).symm

end ZimaScope
