import Mathlib

/-!
# Anoryx.HashChain

Chains of rows in which every row carries the hash of the row before it and a digest of
itself.

Appending under the last hash keeps a chain valid (`valid_concat`), and where digests
are free of collisions the last hash of a valid chain determines all of it
(`Valid.determined`), its length included.
-/

/-- How the rows of a log are chained. -/
structure HashChain (R H : Type) where
  /-- the hash before the first row -/
  genesis : H
  /-- the hash of the row before, as stored -/
  prev : R → H
  /-- the row's own hash, as stored -/
  hash : R → H
  /-- the row's hash, computed anew from what is stored -/
  digest : R → H

namespace HashChain

variable {R H : Type} (C : HashChain R H)

def tip (rows : List R) : H := (rows.getLast?.map C.hash).getD C.genesis

/-- Every row follows the one before it and has the digest it carries; `h` is the hash
before the first. -/
def ValidFrom (h : H) : List R → Prop
  | [] => True
  | r :: rows => C.prev r = h ∧ C.hash r = C.digest r ∧ ValidFrom (C.hash r) rows

def Valid (rows : List R) : Prop := C.ValidFrom C.genesis rows

@[simp] theorem tip_nil : C.tip [] = C.genesis := rfl

@[simp] theorem tip_concat (rows : List R) (r : R) : C.tip (rows ++ [r]) = C.hash r := by
  simp [tip]

variable {C}

variable {rows rows' : List R} {table : List (String × String)}

theorem validFrom_concat {r : R} {h : H} : C.ValidFrom h (rows ++ [r]) ↔
    C.ValidFrom h rows ∧ C.prev r = (rows.getLast?.map C.hash).getD h ∧ C.hash r = C.digest r := by
  induction rows generalizing h with
  | nil => simp [ValidFrom]
  | cons q rows ih =>
      rw [List.cons_append, ValidFrom, ih, ValidFrom]
      cases rows using List.reverseRec with
      | nil => simp [and_assoc]
      | append_singleton rows s =>
          have hlast : (q :: (rows ++ [s])).getLast? = some s := by
            rw [← List.cons_append, List.getLast?_concat]
          simp [hlast, and_assoc]

/-- A chain is extended by a row that links to its tip and has its own digest. -/
theorem valid_concat {r : R} : C.Valid (rows ++ [r]) ↔
    C.Valid rows ∧ C.prev r = C.tip rows ∧ C.hash r = C.digest r :=
  validFrom_concat

/-- **The last hash determines the chain**, as far as the digest reads the rows. -/
theorem Valid.determined {same : R → R → Prop}
    (hdigest : ∀ r s, C.digest r = C.digest s → same r s ∧ C.prev r = C.prev s)
    (hgenesis : ∀ r, C.digest r ≠ C.genesis) (h : C.Valid rows) (h' : C.Valid rows')
    (htip : C.tip rows = C.tip rows') : List.Forall₂ same rows rows' := by
  induction rows using List.reverseRec generalizing rows' with
  | nil =>
      cases rows' using List.reverseRec with
      | nil => exact .nil
      | append_singleton rows' s =>
          have hs := (valid_concat.mp h').2.2
          rw [tip_nil, tip_concat, hs] at htip
          exact absurd htip.symm (hgenesis s)
  | append_singleton rows r ih =>
      obtain ⟨hrows, hprev, hr⟩ := valid_concat.mp h
      cases rows' using List.reverseRec with
      | nil =>
          rw [tip_nil, tip_concat, hr] at htip
          exact absurd htip (hgenesis r)
      | append_singleton rows' s =>
          obtain ⟨hrows', hprev', hs⟩ := valid_concat.mp h'
          rw [tip_concat, tip_concat, hr, hs] at htip
          obtain ⟨hsame, hp⟩ := hdigest r s htip
          rw [hprev, hprev'] at hp
          exact List.rel_append (ih hrows hrows' hp) (.cons hsame .nil)

/-! ## a digest with known values -/

/-- The digest that a table gives; a text outside it is its own digest, behind a mark. -/
def knownDigest (table : List (String × String)) (text : ByteArray) : String :=
  match table.find? fun p => p.1.toUTF8.data.toList = text.data.toList with
  | some p => p.2
  | none => String.ofList ('x' :: text.data.toList.map fun u => Char.ofNat u.toNat)

/-- A digest is no empty text where those of the table are none. -/
theorem knownDigest_ne (h : ∀ p ∈ table, p.2 ≠ "") (text : ByteArray) :
    knownDigest table text ≠ "" := by
  unfold knownDigest
  split
  · next p hp => exact h p (List.mem_of_find?_eq_some hp)
  · intro hempty
    have hchars := congrArg String.toList hempty
    simp at hchars

/-- The digest is injective where the digests of the table differ, and none starts with the mark. -/
theorem knownDigest_injective (hnodup : (table.map Prod.snd).Nodup)
    (hmark : ∀ p ∈ table, p.2.toList.head? ≠ some 'x') :
    Function.Injective (knownDigest table) := by
  have hfind : ∀ {text : ByteArray} {p : String × String},
      (table.find? fun p => p.1.toUTF8.data.toList = text.data.toList) = some p →
        p ∈ table ∧ p.1.toUTF8 = text :=
    fun h => ⟨List.mem_of_find?_eq_some h,
      ByteArray.ext (Array.toList_inj.mp (by simpa using List.find?_some h))⟩
  have hchar : Function.Injective fun u : UInt8 => Char.ofNat u.toNat := by
    intro u v huv
    have hvalid : ∀ u : UInt8, (Char.ofNat u.toNat).toNat = u.toNat := fun u => by
      rw [Char.toNat_ofNat, if_pos (.inl (Nat.lt_trans u.toNat_lt (by decide)))]
    have := congrArg Char.toNat huv
    rw [hvalid, hvalid] at this
    exact UInt8.toNat_inj.mp this
  intro a b h
  unfold knownDigest at h
  cases ha : table.find? fun p => p.1.toUTF8.data.toList = a.data.toList with
  | some p =>
      obtain ⟨hp, hpa⟩ := hfind ha
      cases hb : table.find? fun p => p.1.toUTF8.data.toList = b.data.toList with
      | some q =>
          obtain ⟨hq, hqb⟩ := hfind hb
          simp only [ha, hb] at h
          rw [← hpa, ← hqb, List.inj_on_of_nodup_map hnodup hp hq h]
      | none =>
          simp only [ha, hb] at h
          exact absurd (by rw [h, String.toList_ofList]; rfl) (hmark p hp)
  | none =>
      cases hb : table.find? fun p => p.1.toUTF8.data.toList = b.data.toList with
      | some q =>
          simp only [ha, hb] at h
          exact absurd (by rw [← h, String.toList_ofList]; rfl) (hmark q (hfind hb).1)
      | none =>
          simp only [ha, hb] at h
          have hlist := (List.cons.inj (String.ofList_injective h)).2
          exact ByteArray.ext (Array.toList_inj.mp (List.map_injective_iff.mpr hchar hlist))

end HashChain
