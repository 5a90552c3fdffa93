import Anoryx.PyInt
import Anoryx.StableSort

/-!
# Anoryx.Sentinel.CompliancePack

The chain block of a compliance pack, and the check of an auditor who has nothing but the pack
(`compliance/pack.py`).

`verify_chain_links_offline` sorts the links, and compares each with the next.  Where a sequence
number is repeated, some links are compared with none; and `_is_hex64` takes every text that
`int(_, 16)` reads.  `verify_exact_iff` says on which records the check is the law.
-/

namespace Anoryx.Sentinel.CompliancePack

open PyJson (PyStr CodePoint)
open StableSort

/-! ## the chain block -/

structure ChainLink where
  sequenceNumber : Int
  prevHash : PyStr
  rowHash : PyStr
deriving DecidableEq

structure ChainTip where
  sequenceNumber : Int
  rowHash : PyStr
deriving DecidableEq

structure ChainBlock where
  genesisHash : PyStr
  tip : Option ChainTip
  links : List ChainLink
  linkCount : Nat

/-- What is read of a record -/
structure PackRecord where
  chain : Option ChainBlock

/-- `_build_chain_block`; the genesis hash is given. -/
def buildChainBlock (genesisHash : PyStr) (tip : Option ChainTip) (chainLinks : List ChainLink) : ChainBlock where
  genesisHash := genesisHash
  tip := tip
  links := chainLinks
  linkCount := chainLinks.length

/-! ## the check -/

def isHex64 (value : PyStr) (expectedLen : Nat) : Bool :=
  if value.length ≠ expectedLen then false else (PyInt.parseHex value).isSome

/-- `sorted(links_raw, key=lambda lk: lk["sequence_number"])` -/
def sortedLinks (links : List ChainLink) : List ChainLink :=
  links.insertionSort fun l l' => l.sequenceNumber ≤ l'.sequenceNumber

/-- The test on a link and the next -/
def linkageOk (prev curr : ChainLink) : Bool :=
  if curr.sequenceNumber = prev.sequenceNumber + 1 then curr.prevHash = prev.rowHash else true

def verifyChainLinksOffline (record : PackRecord) : Bool :=
  let linksRaw := (record.chain.map ChainBlock.links).getD []
  if linksRaw = [] then true
  else
    let links := sortedLinks linksRaw
    links.all (fun link => isHex64 link.rowHash 64 && isHex64 link.prevHash 64) &&
      (links.zip links.tail).all fun pair => linkageOk pair.1 pair.2

/-! ## the law -/

/-- A lowercase hexadecimal digit -/
def IsLowerHex (p : CodePoint) : Prop :=
  ('0'.toNat ≤ p.val ∧ p.val ≤ '9'.toNat) ∨ ('a'.toNat ≤ p.val ∧ p.val ≤ 'f'.toNat)

/-- A string of exactly 64 lowercase hexadecimal digits -/
def LowerHex64 (h : PyStr) : Prop := h.length = 64 ∧ ∀ p ∈ h.points, IsLowerHex p

/-- Every two consecutive links are linked. -/
def Linked (links : List ChainLink) : Prop :=
  ∀ a ∈ links, ∀ b ∈ links, b.sequenceNumber = a.sequenceNumber + 1 → b.prevHash = a.rowHash

/-- What the check should find -/
structure Sound (links : List ChainLink) : Prop where
  hashes : ∀ l ∈ links, LowerHex64 l.rowHash ∧ LowerHex64 l.prevHash
  linked : Linked links

def PackRecord.links (record : PackRecord) : List ChainLink := (record.chain.map ChainBlock.links).getD []

/-- Links that stand side by side once they are sorted, and do not fit -/
def BrokenNeighbours (links : List ChainLink) : Prop :=
  ∃ before a b after, sortedLinks links = before ++ a :: b :: after ∧ linkageOk a b = false

/-- Links of one number that have a link before them, or behind them, agree on the hash that is compared. -/
def RepeatsAgree (links : List ChainLink) : Prop :=
  ∀ a ∈ links, ∀ a' ∈ links, ∀ b ∈ links, a.sequenceNumber = a'.sequenceNumber →
    (b.sequenceNumber = a.sequenceNumber + 1 → a.rowHash = a'.rowHash) ∧
      (a.sequenceNumber = b.sequenceNumber + 1 → a.prevHash = a'.prevHash)

theorem isHex64_of_lowerHex64 {h : PyStr} (hh : LowerHex64 h) : isHex64 h 64 = true := by
  have hne : h.points ≠ [] := by
    rintro hnil
    have := hh.1
    simp [PyStr.length, hnil] at this
  rw [isHex64, if_neg (not_not.mpr hh.1)]
  refine PyInt.isSome_parseHex hne fun p hp => ?_
  unfold PyInt.hexValue
  rcases hh.2 p hp with hdigit | hletter
  · rw [if_pos hdigit]
    rfl
  · by_cases hdigit : '0'.toNat ≤ p.val ∧ p.val ≤ '9'.toNat
    · rw [if_pos hdigit]
      rfl
    · rw [if_neg hdigit, if_pos hletter]
      rfl

variable {l a b a' : ChainLink} {record : PackRecord}

theorem mem_sortedLinks {links : List ChainLink} : l ∈ sortedLinks links ↔ l ∈ links :=
  List.mem_insertionSort _

theorem pairwise_sortedLinks (links : List ChainLink) :
    (sortedLinks links).Pairwise fun l l' => l.sequenceNumber ≤ l'.sequenceNumber := by
  have htotal : Std.Total fun l l' : ChainLink => l.sequenceNumber ≤ l'.sequenceNumber :=
    ⟨fun l l' => le_total l.sequenceNumber l'.sequenceNumber⟩
  have htrans : IsTrans ChainLink fun l l' => l.sequenceNumber ≤ l'.sequenceNumber := ⟨fun _ _ _ => le_trans⟩
  exact List.pairwise_insertionSort _ _

theorem all_zip_tail {links : List ChainLink} :
    (links.zip links.tail).all (fun pair => linkageOk pair.1 pair.2) = true ↔
      links.IsChain fun a b => linkageOk a b = true := by
  induction links with
  | nil => simp
  | cons a rest ih =>
      cases rest with
      | nil => simp
      | cons b rest => simpa using fun _ => ih

theorem not_brokenNeighbours {links : List ChainLink} :
    ¬ BrokenNeighbours links ↔ (sortedLinks links).IsChain fun a b => linkageOk a b = true := by
  rw [List.isChain_iff_forall_rel_of_append_cons_cons]
  simp only [BrokenNeighbours, not_exists, not_and, Bool.not_eq_false]
  exact ⟨fun h a b before after => h before a b after, fun h before a b after => @h a b before after⟩

theorem verifyChainLinksOffline_eq_true : verifyChainLinksOffline record = true ↔
    (∀ l ∈ record.links, isHex64 l.rowHash 64 = true ∧ isHex64 l.prevHash 64 = true) ∧
      ¬ BrokenNeighbours record.links := by
  rw [not_brokenNeighbours]
  unfold verifyChainLinksOffline
  show (if record.links = [] then true else _) = true ↔ _
  split
  · next h => simp [h, sortedLinks]
  · rw [Bool.and_eq_true, all_zip_tail, List.all_eq_true]
    simp only [mem_sortedLinks, Bool.and_eq_true, PackRecord.links]

/-! ## neighbours and repetitions -/

variable {links chain : List ChainLink}

theorem linkageOk_eq_true :
    linkageOk a b = true ↔ (b.sequenceNumber = a.sequenceNumber + 1 → b.prevHash = a.rowHash) := by
  unfold linkageOk
  split <;> simp [*]

theorem not_brokenNeighbours_of_linked (h : Linked links) : ¬ BrokenNeighbours links := by
  rintro ⟨before, a, b, after, hsorted, hbroken⟩
  have hmem (l : ChainLink) (hl : l = a ∨ l = b) : l ∈ links := by
    rw [← mem_sortedLinks, hsorted]
    rcases hl with rfl | rfl <;> simp
  rw [Bool.eq_false_iff, ne_eq, linkageOk_eq_true] at hbroken
  exact hbroken (h a (hmem a (Or.inl rfl)) b (hmem b (Or.inr rfl)))

theorem exists_adjacent (hbroken : ¬ BrokenNeighbours links) (ha : a ∈ links) (hb : b ∈ links)
    (hnext : b.sequenceNumber = a.sequenceNumber + 1) :
    ∃ a' ∈ links, ∃ b' ∈ links, a'.sequenceNumber = a.sequenceNumber ∧ b'.sequenceNumber = b.sequenceNumber ∧
      b'.prevHash = a'.rowHash := by
  obtain ⟨before, a', b', after, hsorted, ha', hb'⟩ := exists_neighbours (pairwise_sortedLinks links)
    ⟨a, mem_sortedLinks.mpr ha, rfl⟩ ⟨b, mem_sortedLinks.mpr hb, rfl⟩ (by omega) (by omega)
  have hmem (l : ChainLink) (hl : l = a' ∨ l = b') : l ∈ links := by
    rw [← mem_sortedLinks, hsorted]
    rcases hl with rfl | rfl <;> simp
  refine ⟨a', hmem a' (Or.inl rfl), b', hmem b' (Or.inr rfl), ha', hb', ?_⟩
  by_contra hne
  refine hbroken ⟨before, a', b', after, hsorted, ?_⟩
  rw [linkageOk, if_pos (by omega)]
  simpa using hne

theorem linked_iff (hbroken : ¬ BrokenNeighbours links) : Linked links ↔ RepeatsAgree links := by
  constructor
  · intro h a ha a' ha' b hb hsame
    constructor
    · intro hnext
      rw [← h a ha b hb hnext, ← h a' ha' b hb (by omega)]
    · intro hnext
      rw [h b hb a ha hnext, h b hb a' ha' (by omega)]
  · intro h a ha b hb hnext
    obtain ⟨a', ha', b', hb', hsame, hsame', hlink⟩ := exists_adjacent hbroken ha hb hnext
    calc b.prevHash = b'.prevHash := (h b hb b' hb' a ha hsame'.symm).2 hnext
      _ = a'.rowHash := hlink
      _ = a.rowHash := ((h a ha a' ha' b hb hsame.symm).1 hnext).symm

/-! ## honest chains -/

/-- The rows of a log, oldest first: each is hashed on top of the one before it. -/
structure Honest (chain : List ChainLink) : Prop where
  hashes : ∀ l ∈ chain, LowerHex64 l.rowHash ∧ LowerHex64 l.prevHash
  chained : chain.IsChain fun a b => a.sequenceNumber < b.sequenceNumber ∧ b.prevHash = a.rowHash

theorem Honest.nodup (h : Honest chain) : (chain.map ChainLink.sequenceNumber).Nodup := by
  have hpairwise := List.isChain_iff_pairwise.mp (h.chained.imp fun _ _ h => h.1)
  exact List.pairwise_map.mpr (hpairwise.imp fun h => ne_of_lt h)

theorem Honest.linked (h : Honest chain) : Linked chain := by
  have hsorted := (List.isChain_iff_pairwise.mp (h.chained.imp fun _ _ h => h.1)).imp fun h => le_of_lt h
  intro a ha b hb hnext
  obtain ⟨before, a', b', after, hchain, ha', hb'⟩ :=
    exists_neighbours hsorted ⟨a, ha, rfl⟩ ⟨b, hb, rfl⟩ (by omega) (by omega)
  have hinj := List.inj_on_of_nodup_map h.nodup
  obtain rfl : a' = a := hinj (by simp [hchain]) ha ha'
  obtain rfl : b' = b := hinj (by simp [hchain]) hb hb'
  exact (List.isChain_iff_forall_rel_of_append_cons_cons.mp h.chained hchain).2

theorem Honest.sound (h : Honest chain) (hsub : links.Subperm chain) : Sound links where
  hashes l hl := h.hashes l (hsub.subset hl)
  linked a ha b hb := h.linked a (hsub.subset ha) b (hsub.subset hb)

theorem Honest.nodup_of_subperm (h : Honest chain) (hsub : links.Subperm chain) :
    (links.map ChainLink.sequenceNumber).Nodup := by
  obtain ⟨links', hperm, hsublist⟩ := hsub
  exact ((hperm.map _).nodup_iff).mp (h.nodup.sublist (hsublist.map _))

theorem verifyChainLinksOffline_of_sound (h : Sound record.links) : verifyChainLinksOffline record = true :=
  verifyChainLinksOffline_eq_true.mpr
    ⟨fun l hl => ⟨isHex64_of_lowerHex64 (h.hashes l hl).1, isHex64_of_lowerHex64 (h.hashes l hl).2⟩,
      not_brokenNeighbours_of_linked h.linked⟩

/-- A change of a link is found if a neighbour is kept. -/
theorem verify_altered (h : Honest chain) {before after : List ChainLink}
    (hsub : (before ++ a :: after).Subperm chain) (hsame : a'.sequenceNumber = a.sequenceNumber)
    (haltered : (∃ b ∈ before ++ a :: after, b.sequenceNumber = a.sequenceNumber + 1 ∧ a'.rowHash ≠ a.rowHash) ∨
      ∃ b ∈ before ++ a :: after, a.sequenceNumber = b.sequenceNumber + 1 ∧ a'.prevHash ≠ a.prevHash)
    (hrecord : record.links = before ++ a' :: after) : verifyChainLinksOffline record = false := by
  have hsound := h.sound hsub
  have ha : a ∈ before ++ a :: after := by simp
  have ha' : a' ∈ record.links := by simp [hrecord]
  have hother {b : ChainLink} (hb : b ∈ before ++ a :: after) (hne : b.sequenceNumber ≠ a.sequenceNumber) :
      b ∈ record.links := by
    rw [hrecord]
    simp only [List.mem_append, List.mem_cons] at hb ⊢
    rcases hb with hb | rfl | hb
    · exact Or.inl hb
    · exact absurd rfl hne
    · exact Or.inr (Or.inr hb)
  have hinj := List.inj_on_of_nodup_map (f := ChainLink.sequenceNumber) (l := record.links) <| by
    rw [hrecord]
    simpa [hsame] using h.nodup_of_subperm hsub
  rw [Bool.eq_false_iff]
  intro htrue
  have hbroken := (verifyChainLinksOffline_eq_true.mp htrue).2
  rcases haltered with ⟨b, hb, hnext, hne⟩ | ⟨b, hb, hnext, hne⟩
  · obtain ⟨x, hx, y, hy, hxa, hyb, hlink⟩ := exists_adjacent hbroken ha' (hother hb (by omega)) (by omega)
    obtain rfl := hinj hx ha' hxa
    obtain rfl := hinj hy (hother hb (by omega)) hyb
    exact hne (hlink.symm.trans (hsound.linked a ha y hb hnext))
  · obtain ⟨x, hx, y, hy, hxb, hya, hlink⟩ := exists_adjacent hbroken (hother hb (by omega)) ha' (by omega)
    obtain rfl := hinj hy ha' hya
    obtain rfl := hinj hx (hother hb (by omega)) hxb
    exact hne (hlink.trans (hsound.linked x hb a ha hnext).symm)

theorem verify_eq_true_iff_sound (record : PackRecord) :
    (verifyChainLinksOffline record = true ↔ Sound record.links) ↔
      (¬ ∀ l ∈ record.links, isHex64 l.rowHash 64 = true ∧ isHex64 l.prevHash 64 = true) ∨
        BrokenNeighbours record.links ∨
          (∀ l ∈ record.links, LowerHex64 l.rowHash ∧ LowerHex64 l.prevHash) ∧ RepeatsAgree record.links := by
  rw [verifyChainLinksOffline_eq_true]
  by_cases hhex : ∀ l ∈ record.links, isHex64 l.rowHash 64 = true ∧ isHex64 l.prevHash 64 = true
  · by_cases hbroken : BrokenNeighbours record.links
    · have hnot : ¬ Sound record.links := fun h => not_brokenNeighbours_of_linked h.linked hbroken
      simp [hbroken, hnot]
    · have hsound : Sound record.links ↔
          (∀ l ∈ record.links, LowerHex64 l.rowHash ∧ LowerHex64 l.prevHash) ∧ RepeatsAgree record.links := by
        rw [← linked_iff hbroken]
        exact ⟨fun h => ⟨h.hashes, h.linked⟩, fun h => ⟨h.1, h.2⟩⟩
      rw [← hsound]
      simp only [hbroken]
      tauto
  · have hnot : ¬ Sound record.links := fun h =>
      hhex (verifyChainLinksOffline_eq_true.mp (verifyChainLinksOffline_of_sound h)).1
    simp only [hhex, hnot]
    tauto

def packRecord (genesisHash : PyStr) (tip : Option ChainTip) (links : List ChainLink) : PackRecord :=
  ⟨some (buildChainBlock genesisHash tip links)⟩

/-- When the check is exact; the records of honest chains pass, and fail once a hash next to a neighbour
is another. -/
theorem offlineCheck (record : PackRecord) :
    ((verifyChainLinksOffline record = true ↔ Sound record.links) ↔
      (¬ ∀ l ∈ record.links, isHex64 l.rowHash 64 = true ∧ isHex64 l.prevHash 64 = true) ∨
        BrokenNeighbours record.links ∨
          (∀ l ∈ record.links, LowerHex64 l.rowHash ∧ LowerHex64 l.prevHash) ∧ RepeatsAgree record.links) ∧
    (∀ chain links genesis tip, Honest chain → links.Subperm chain →
      verifyChainLinksOffline (packRecord genesis tip links) = true) ∧
    ∀ chain before after a a' genesis tip, Honest chain → (before ++ a :: after).Subperm chain →
      a'.sequenceNumber = a.sequenceNumber →
        ((∃ b ∈ before ++ a :: after, b.sequenceNumber = a.sequenceNumber + 1 ∧ a'.rowHash ≠ a.rowHash) ∨
          ∃ b ∈ before ++ a :: after, a.sequenceNumber = b.sequenceNumber + 1 ∧ a'.prevHash ≠ a.prevHash) →
          verifyChainLinksOffline (packRecord genesis tip (before ++ a' :: after)) = false := by
  refine ⟨verify_eq_true_iff_sound record, ?_, ?_⟩
  · intro chain links genesis tip hhonest hsub
    exact verifyChainLinksOffline_of_sound (hhonest.sound hsub)
  · intro chain before after a a' genesis tip hhonest hsub hsame haltered
    exact verify_altered hhonest hsub hsame haltered rfl

/-! ## samples -/

def sampleHash (c : Char) : PyStr := ⟨List.replicate 64 (Fin.ofNat _ c.toNat)⟩

theorem lowerHex64_sampleHash {c : Char} (h : IsLowerHex (Fin.ofNat _ c.toNat)) : LowerHex64 (sampleHash c) := by
  refine ⟨by simp [sampleHash, PyStr.length], fun p hp => ?_⟩
  rw [List.eq_of_mem_replicate hp]
  exact h

def sampleChain : List ChainLink :=
  [⟨1, sampleHash '0', sampleHash 'a'⟩, ⟨2, sampleHash 'a', sampleHash 'b'⟩]

theorem offlineCheck_sample :
    verifyChainLinksOffline (packRecord (sampleHash '0') none sampleChain) = true ∧
      verifyChainLinksOffline (packRecord (sampleHash '0') none
        ([] ++ ⟨1, sampleHash '0', sampleHash 'c'⟩ :: [⟨2, sampleHash 'a', sampleHash 'b'⟩])) = false := by
  have honest : Honest sampleChain := by
    constructor
    · have hzero : LowerHex64 (sampleHash '0') := lowerHex64_sampleHash (by unfold IsLowerHex; decide)
      have ha : LowerHex64 (sampleHash 'a') := lowerHex64_sampleHash (by unfold IsLowerHex; decide)
      have hb : LowerHex64 (sampleHash 'b') := lowerHex64_sampleHash (by unfold IsLowerHex; decide)
      simp [sampleChain, hzero, ha, hb]
    · simp [sampleChain]
  refine ⟨(offlineCheck ⟨none⟩).2.1 sampleChain sampleChain _ _ honest (List.Subperm.refl _), ?_⟩
  refine (offlineCheck ⟨none⟩).2.2 sampleChain [] _ ⟨1, sampleHash '0', sampleHash 'a'⟩ _ _ _ honest (List.Subperm.refl _) rfl ?_
  exact Or.inl ⟨⟨2, sampleHash 'a', sampleHash 'b'⟩, List.mem_cons_of_mem _ List.mem_cons_self, rfl,
    fun h => absurd (congrArg (fun s : PyStr => s.points.head?) h) (by decide)⟩

def capitals : PackRecord := packRecord (sampleHash '0') none [⟨1, sampleHash 'A', sampleHash 'B'⟩]

/-- A second link under the number of the first's successor -/
def repeated : PackRecord :=
  packRecord (sampleHash '0') none (sampleChain ++ [⟨2, sampleHash 'c', sampleHash 'd'⟩])

/-- Neither is sound, and both pass. -/
theorem offlineCheck_fails : (verifyChainLinksOffline capitals = true ∧ ¬ Sound capitals.links) ∧
    verifyChainLinksOffline repeated = true ∧ ¬ Sound repeated.links := by
  refine ⟨⟨by decide +kernel, fun h => ?_⟩, by decide +kernel, fun h => ?_⟩
  · have hcapital := (h.hashes ⟨1, sampleHash 'A', sampleHash 'B'⟩ List.mem_cons_self).1.2
      (Fin.ofNat _ 'B'.toNat) (by simp [sampleHash])
    revert hcapital
    unfold IsLowerHex
    decide
  · have hlink := h.linked ⟨1, sampleHash '0', sampleHash 'a'⟩ List.mem_cons_self
      ⟨2, sampleHash 'c', sampleHash 'd'⟩ (List.mem_append_right _ List.mem_cons_self) rfl
    exact absurd hlink (by decide)

end Anoryx.Sentinel.CompliancePack
