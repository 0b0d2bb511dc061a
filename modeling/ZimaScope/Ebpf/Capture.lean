import ZimaScope.Ebpf.Parse
import ZimaScope.Ebpf.Truncation

/-! # Capture length

What more captured bytes change about a parsed packet: a verdict that is not
truncated stays.
-/

namespace ZimaScope

/-- What is not truncated stays. -/
def Settles {α : Type} (x y : Except Unparsed α) : Prop := x = .error .truncated ∨ y = x

namespace Settles

variable {α β : Type} {x y : Except Unparsed α} {f g : α → Except Unparsed β}

protected theorem refl (x : Except Unparsed α) : Settles x x := Or.inr rfl

theorem bind (hx : Settles x y) (hf : ∀ a, Settles (f a) (g a)) : Settles (x >>= f) (y >>= g) := by
  rcases hx with rfl | rfl
  · exact Or.inl rfl
  · cases y with
    | error e => exact Or.inr rfl
    | ok a => exact hf a

end Settles

theorem settles_orTruncated {α : Type} {read read' : Option α} (h : CutOf read read') :
    Settles (orTruncated read) (orTruncated read') := by
  cases read with
  | none => exact Or.inl rfl
  | some a =>
    rw [h a rfl]
    exact Settles.refl _

/-- A check for captured bytes. -/
theorem settles_demand {ok ok' : Prop} [Decidable ok] [Decidable ok'] (h : ok → ok') :
    Settles (demand ok .truncated) (demand ok' .truncated) := by
  by_cases hok : ok
  · unfold demand
    rw [if_pos hok, if_pos (h hok)]
    exact Settles.refl _
  · left
    exact if_neg hok

/-- A cursor over more of the same packet. -/
structure PacketCursor.Extends (cursor cursor' : PacketCursor) : Prop where
  readU8 : ∀ p, CutOf (cursor.readU8 p) (cursor'.readU8 p)
  readU16Be : ∀ p, CutOf (cursor.readU16Be p) (cursor'.readU16Be p)
  readU32Be : ∀ p, CutOf (cursor.readU32Be p) (cursor'.readU32Be p)

theorem cutOf_slice (p q : List UInt8) (offset len : ℕ) :
    CutOf (MemoryCursor.slice p offset len) (MemoryCursor.slice (p ++ q) offset len) := by
  intro bytes h
  unfold MemoryCursor.slice at *
  rw [Option.ite_none_right_eq_some] at h
  obtain ⟨hle, ⟨⟩⟩ := h
  rw [if_pos (by rw [List.length_append]; omega), List.drop_append_of_le_length (by omega),
    List.take_append_of_le_length (by rw [List.length_drop]; omega)]

theorem cutOf_map {α β : Type} {x y : Option α} (h : CutOf x y) (f : α → β) :
    CutOf (x.map f) (y.map f) := by
  intro b hb
  obtain ⟨a, ha, rfl⟩ := Option.map_eq_some_iff.mp hb
  rw [h a ha]
  rfl

theorem extends_append (p q : List UInt8) : (memoryCursor p).Extends (memoryCursor (p ++ q)) where
  readU8 i := by
    intro byte h
    have hlt : i < p.length := (List.getElem?_eq_some_iff.mp h).1
    exact (List.getElem?_append_left hlt).trans h
  readU16Be i := cutOf_map (cutOf_slice p q i 2) _
  readU32Be i := cutOf_map (cutOf_slice p q i 4) _

section Parse

variable {cursor cursor' : PacketCursor} (h : cursor.Extends cursor')
include h

theorem PacketCursor.Extends.has {offset len : ℕ} (hhas : cursor.has offset len) :
    cursor'.has offset len := by
  unfold PacketCursor.has at *
  rw [Bool.or_eq_true] at *
  refine hhas.imp_right ?_
  intro hbyte
  obtain ⟨byte, hbyte⟩ := Option.isSome_iff_exists.mp hbyte
  rw [h.readU8 _ _ hbyte]
  rfl

theorem settles_demandL4 (protocol : UInt8) (l4Offset declaredEnd : ℕ) :
    Settles (demandL4 cursor protocol l4Offset declaredEnd)
      (demandL4 cursor' protocol l4Offset declaredEnd) := by
  unfold demandL4
  split
  · exact settles_demand (And.imp_right h.has)
  · split
    · exact settles_demand (And.imp_right h.has)
    · exact Settles.refl _

theorem settles_parseL4 (protocol : UInt8) (l4Offset declaredEnd : ℕ) :
    Settles (parseL4 cursor protocol l4Offset declaredEnd)
      (parseL4 cursor' protocol l4Offset declaredEnd) := by
  unfold parseL4
  split
  · apply (settles_orTruncated (h.readU16Be _)).bind
    intro offsetFlags
    apply (Settles.refl _).bind
    intro _
    apply (settles_demand (And.imp_right h.has)).bind
    intro _
    exact Settles.refl _
  · exact Settles.refl _

theorem settles_parseIpv4 (l3Offset : ℕ) :
    Settles (parseIpv4 cursor l3Offset) (parseIpv4 cursor' l3Offset) := by
  unfold parseIpv4
  apply (settles_orTruncated (h.readU8 _)).bind
  intro versionIhl
  apply (Settles.refl _).bind
  intro _
  apply (Settles.refl _).bind
  intro _
  apply (settles_orTruncated (h.readU16Be _)).bind
  intro totalLength
  apply (Settles.refl _).bind
  intro _
  apply (settles_orTruncated (h.readU16Be _)).bind
  intro fragment
  apply (Settles.refl _).bind
  intro _
  apply (settles_orTruncated (h.readU8 _)).bind
  intro protocol
  apply (settles_orTruncated (h.readU32Be _)).bind
  intro src
  apply (settles_orTruncated (h.readU32Be _)).bind
  intro dst
  apply (settles_demandL4 h _ _ _).bind
  intro _
  apply (settles_orTruncated (h.readU16Be _)).bind
  intro srcPort
  apply (settles_orTruncated (h.readU16Be _)).bind
  intro dstPort
  apply (settles_parseL4 h _ _ _).bind
  intro _
  exact Settles.refl _

theorem settles_parseEthernet : Settles (parseEthernet cursor) (parseEthernet cursor') := by
  unfold parseEthernet
  apply (settles_orTruncated (h.readU16Be _)).bind
  intro ethertype
  split
  · apply (settles_orTruncated (h.readU16Be _)).bind
    intro inner
    exact Settles.refl _
  · exact Settles.refl _

theorem settles_parse : Settles (parse cursor) (parse cursor') := by
  unfold parse
  apply (settles_parseEthernet h).bind
  intro _
  apply (Settles.refl _).bind
  intro _
  exact settles_parseIpv4 h _

end Parse

/-- More captured bytes change no verdict but truncated, and fewer give truncated or the same. -/
theorem parse_stable (p q : List UInt8) :
    (parse (memoryCursor p) ≠ .error .truncated →
        parse (memoryCursor (p ++ q)) = parse (memoryCursor p)) ∧
      ∀ k, parse (memoryCursor (p.take k)) = .error .truncated ∨
        parse (memoryCursor (p.take k)) = parse (memoryCursor p) := by
  constructor
  · intro hsettled
    exact (settles_parse (extends_append p q)).resolve_left hsettled
  · intro k
    have hsettles := settles_parse (extends_append (p.take k) (p.drop k))
    rw [List.take_append_drop] at hsettles
    exact hsettles.imp_right Eq.symm

end ZimaScope
