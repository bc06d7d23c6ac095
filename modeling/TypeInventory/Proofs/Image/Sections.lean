import TypeInventory.Image.Section
import TypeInventory.Proofs.Checked.Operations

set_option relaxedAutoImplicit false
set_option autoImplicit false

/-!
# Addresses and places in the file

The place of an address is given by the first section that covers it, and a section that reaches
beyond the largest address ends the search. So in general it matters in which order the sections
come. If all of them end before the largest address and none covers an address of another one, it
does not: this module says which addresses have a place then, and that places keep distances and
tell addresses apart.

## Main definitions

* `Section.addresses`, `Section.places` — what a section covers in memory and in the file.
* `SectionsApart` — sections that end before the largest address and cover no address twice.
* `checkedFileOffset` — the place of an address, with the distance from its section checked.

## Main results

* `exists_section_of_fileOffset` — a place comes from a section that covers the address.
* `SectionsApart.fileOffset_eq_ok_iff` — the place of an address, whatever the order of sections is.
* `SectionsApart.fileOffset_perm` — the order of sections does not matter.
* `addresses_in_file` — all of this, and that no difference leaves its range.
-/

namespace TypeInventory

/-! ## What sections cover -/

namespace Section

variable {s : Section} {address : ℕ}

/-- The addresses that a section covers. -/
def addresses (s : Section) : Set ℕ :=
  Set.Ico s.address (s.address + s.span)

/-- The places in the file that the addresses of a section are mapped to. -/
def places (s : Section) : Set ℕ :=
  Set.Ico s.fileStart (s.fileStart + s.span)

instance (s : Section) (address : ℕ) : Decidable (address ∈ s.addresses) :=
  inferInstanceAs (Decidable (s.address ≤ address ∧ address < s.address + s.span))

instance (s t : Section) : Decidable (Disjoint s.addresses t.addresses) :=
  decidable_of_iff _ Set.Ico_disjoint_Ico.symm

instance (s t : Section) : Decidable (Disjoint s.places t.places) :=
  decidable_of_iff _ Set.Ico_disjoint_Ico.symm

/-- The place of an address that a section covers. -/
def placeOf (s : Section) (address : ℕ) : ℕ :=
  address - s.address + s.fileStart

lemma mem_addresses :
    address ∈ s.addresses ↔ s.address ≤ address ∧ address < s.address + s.span :=
  Set.mem_Ico

/-- The place of an address belongs to the section. -/
lemma placeOf_mem_places (h : address ∈ s.addresses) : s.placeOf address ∈ s.places := by
  rw [mem_addresses] at h
  rw [places, Set.mem_Ico, placeOf]
  omega

/-- Within a section, places are as far apart as addresses. -/
lemma placeOf_add (h : address ∈ s.addresses) (distance : ℕ) :
    s.placeOf (address + distance) = s.placeOf address + distance := by
  rw [mem_addresses] at h
  rw [placeOf, placeOf]
  omega

/-- Within a section, different addresses have different places. -/
lemma placeOf_inj {address' : ℕ} (h : address ∈ s.addresses) (h' : address' ∈ s.addresses)
    (heq : s.placeOf address = s.placeOf address') : address = address' := by
  rw [mem_addresses] at h h'
  rw [placeOf, placeOf] at heq
  omega

/-- An address in a section that ends before the largest address is not too large. -/
lemma lt_addressLimit (hends : s.address + s.span < addressLimit) (h : address ∈ s.addresses) :
    address < addressLimit :=
  (mem_addresses.mp h).2.trans hends

end Section

/-- Two members of a list of which no two have anything in common are the same, if they have
something in common. -/
lemma eq_of_pairwise_disjoint {α : Type*} {range : α → Set ℕ} {as : List α}
    (h : as.Pairwise fun a b => Disjoint (range a) (range b)) {a b : α} (ha : a ∈ as) (hb : b ∈ as)
    {n : ℕ} (hna : n ∈ range a) (hnb : n ∈ range b) : a = b := by
  by_contra hne
  have : Std.Symm fun a b => Disjoint (range a) (range b) := ⟨fun _ _ hd => hd.symm⟩
  exact Set.disjoint_left.mp (h.forall ha hb hne) hna hnb

/-! ## The search for a section -/

section Search

variable {s : Section} {sections : List Section} {address place : ℕ}

/-- The search ends at a section that reaches beyond the largest address. -/
lemma offsetIn_cons_of_overflow (h : addressLimit ≤ s.address + s.span) :
    offsetIn address (s :: sections) = .error (.malformed (.sectionOverflow s.address s.span)) :=
  if_pos h

/-- The search ends at a section that covers the address. -/
lemma offsetIn_cons_of_mem (hends : s.address + s.span < addressLimit)
    (h : address ∈ s.addresses) :
    offsetIn address (s :: sections) = .ok (s.placeOf address) := by
  rw [offsetIn, if_neg (Nat.not_le.mpr hends), if_pos (Section.mem_addresses.mp h)]
  rfl

/-- The search goes on behind any other section. -/
lemma offsetIn_cons_of_notMem (hends : s.address + s.span < addressLimit)
    (h : address ∉ s.addresses) :
    offsetIn address (s :: sections) = offsetIn address sections := by
  rw [Section.mem_addresses] at h
  rw [offsetIn, if_neg (Nat.not_le.mpr hends), if_neg h]

/-- **A place comes from a section that covers the address**, whatever the sections are. -/
lemma exists_section_of_offsetIn (h : offsetIn address sections = .ok place) :
    ∃ s ∈ sections, address ∈ s.addresses ∧ place = s.placeOf address := by
  induction sections with
  | nil => cases h
  | cons s sections ih =>
    by_cases hends : addressLimit ≤ s.address + s.span
    · rw [offsetIn_cons_of_overflow hends] at h
      cases h
    · rw [Nat.not_le] at hends
      by_cases hmem : address ∈ s.addresses
      · rw [offsetIn_cons_of_mem hends hmem] at h
        exact ⟨s, List.mem_cons_self, hmem, (Except.ok.inj h).symm⟩
      · rw [offsetIn_cons_of_notMem hends hmem] at h
        obtain ⟨t, ht, hcovers⟩ := ih h
        exact ⟨t, List.mem_cons_of_mem s ht, hcovers⟩

/-- The same with the check of the address in front. -/
lemma exists_section_of_fileOffset (h : fileOffset sections address = .ok place) :
    ∃ s ∈ sections, address ∈ s.addresses ∧ place = s.placeOf address := by
  unfold fileOffset at h
  split_ifs at h
  exact exists_section_of_offsetIn h

/-- The search finds no place if no section covers the address. -/
lemma offsetIn_of_forall_notMem (hends : ∀ s ∈ sections, s.address + s.span < addressLimit)
    (h : ∀ s ∈ sections, address ∉ s.addresses) :
    offsetIn address sections = .error (.malformed (.unmappedAddress address)) := by
  induction sections with
  | nil => rfl
  | cons s sections ih =>
    rw [List.forall_mem_cons] at hends h
    rw [offsetIn_cons_of_notMem hends.1 h.1, ih hends.2 h.2]

/-- The search finds a place if a section covers the address. -/
lemma exists_offsetIn_eq_ok (hends : ∀ s ∈ sections, s.address + s.span < addressLimit)
    (h : ∃ s ∈ sections, address ∈ s.addresses) :
    ∃ place, offsetIn address sections = .ok place := by
  induction sections with
  | nil => simp at h
  | cons s sections ih =>
    rw [List.forall_mem_cons] at hends
    by_cases hmem : address ∈ s.addresses
    · exact ⟨_, offsetIn_cons_of_mem hends.1 hmem⟩
    · rw [offsetIn_cons_of_notMem hends.1 hmem]
      rw [List.exists_mem_cons_iff] at h
      exact ih hends.2 (h.resolve_left hmem)

end Search

/-! ## The difference that is taken -/

/-- The search for a section, with the distance of the address from the start of its section
checked. -/
def checkedOffsetIn (address : ℕ) : List Section → ExceptT Fault Option ℕ
  | [] => throw (.malformed (.unmappedAddress address))
  | s :: sections =>
    if addressLimit ≤ s.address + s.span then
      throw (.malformed (.sectionOverflow s.address s.span))
    else if s.address ≤ address ∧ address < s.address + s.span then do
      let distance ← Checked.sub address s.address
      return distance + s.fileStart
    else
      checkedOffsetIn address sections

/-- The place of an address in the file, with the distance from the start of its section checked. -/
def checkedFileOffset (sections : List Section) (address : ℕ) : ExceptT Fault Option ℕ :=
  if addressLimit ≤ address then
    throw (.malformed (.addressTooLarge address))
  else
    checkedOffsetIn address sections

/-- An address does not lie before the section that covers it. -/
lemma checkedOffsetIn_eq (sections : List Section) (address : ℕ) :
    checkedOffsetIn address sections = Checked.plain (offsetIn address sections) := by
  induction sections with
  | nil => rfl
  | cons s sections ih =>
    rw [checkedOffsetIn, offsetIn]
    split_ifs with hends hmem
    · rfl
    · rw [Checked.sub_of_le hmem.1]
      rfl
    · exact ih

lemma checkedFileOffset_eq (sections : List Section) (address : ℕ) :
    checkedFileOffset sections address = Checked.plain (fileOffset sections address) := by
  unfold checkedFileOffset fileOffset
  split_ifs
  · rfl
  · exact checkedOffsetIn_eq sections address

/-! ## Sections that are apart -/

/-- Sections that end before the largest address and of which no two cover the same address. -/
structure SectionsApart (sections : List Section) : Prop where
  /-- Each section ends before the largest address. -/
  ends : ∀ s ∈ sections, s.address + s.span < addressLimit
  /-- No address is covered twice. -/
  apart : sections.Pairwise fun s t => Disjoint s.addresses t.addresses

instance (sections : List Section) : Decidable (SectionsApart sections) :=
  decidable_of_iff ((∀ s ∈ sections, s.address + s.span < addressLimit) ∧
      sections.Pairwise fun s t => Disjoint s.addresses t.addresses)
    ⟨fun h => ⟨h.1, h.2⟩, fun h => ⟨h.ends, h.apart⟩⟩

namespace SectionsApart

variable {sections sections' : List Section} {s : Section} {address place : ℕ}

/-- Sections in another order are apart as well. -/
lemma perm (h : SectionsApart sections) (hperm : sections.Perm sections') :
    SectionsApart sections' where
  ends s hs := h.ends s (hperm.mem_iff.mpr hs)
  apart := h.apart.perm hperm fun hd => hd.symm

/-- An address has the place that the section around it gives it. -/
lemma fileOffset_of_mem (h : SectionsApart sections) (hs : s ∈ sections)
    (hmem : address ∈ s.addresses) : fileOffset sections address = .ok (s.placeOf address) := by
  obtain ⟨place, hplace⟩ := exists_offsetIn_eq_ok h.ends ⟨s, hs, hmem⟩
  obtain ⟨t, ht, hmem', rfl⟩ := exists_section_of_offsetIn hplace
  obtain rfl := eq_of_pairwise_disjoint h.apart hs ht hmem hmem'
  rw [fileOffset, if_neg (Nat.not_le.mpr (Section.lt_addressLimit (h.ends s hs) hmem)), hplace]

/-- **The place of an address** is the one in the section around it, whatever the order of the
sections is. -/
lemma fileOffset_eq_ok_iff (h : SectionsApart sections) :
    fileOffset sections address = .ok place ↔
      ∃ s ∈ sections, address ∈ s.addresses ∧ place = s.placeOf address := by
  refine ⟨exists_section_of_fileOffset, ?_⟩
  rintro ⟨s, hs, hmem, rfl⟩
  exact h.fileOffset_of_mem hs hmem

/-- An address outside all sections has no place. -/
lemma fileOffset_of_forall_notMem (h : SectionsApart sections)
    (hnone : ∀ s ∈ sections, address ∉ s.addresses) :
    fileOffset sections address = .error (.malformed
      (if addressLimit ≤ address then .addressTooLarge address else .unmappedAddress address)) := by
  unfold fileOffset
  split_ifs
  · rfl
  · exact offsetIn_of_forall_notMem h.ends hnone

/-- **The order of sections does not matter**, neither for places nor for failures. -/
lemma fileOffset_perm (h : SectionsApart sections) (hperm : sections.Perm sections')
    (address : ℕ) : fileOffset sections' address = fileOffset sections address := by
  by_cases hmem : ∃ s ∈ sections, address ∈ s.addresses
  · obtain ⟨s, hs, hmem⟩ := hmem
    rw [h.fileOffset_of_mem hs hmem, (h.perm hperm).fileOffset_of_mem (hperm.mem_iff.mp hs) hmem]
  · push Not at hmem
    have hmem' : ∀ s ∈ sections', address ∉ s.addresses :=
      fun s hs => hmem s (hperm.mem_iff.mpr hs)
    rw [h.fileOffset_of_forall_notMem hmem, (h.perm hperm).fileOffset_of_forall_notMem hmem']

/-- **Different addresses have different places**, if no place in the file belongs to two
sections. -/
lemma fileOffset_inj (h : SectionsApart sections)
    (hplaces : sections.Pairwise fun s t => Disjoint s.places t.places) {address' : ℕ}
    (hplace : fileOffset sections address = .ok place)
    (hplace' : fileOffset sections address' = .ok place) : address = address' := by
  obtain ⟨s, hs, hmem, rfl⟩ := h.fileOffset_eq_ok_iff.mp hplace
  obtain ⟨t, ht, hmem', heq⟩ := h.fileOffset_eq_ok_iff.mp hplace'
  have hboth : s.placeOf address ∈ t.places := heq ▸ Section.placeOf_mem_places hmem'
  obtain rfl := eq_of_pairwise_disjoint hplaces hs ht (Section.placeOf_mem_places hmem) hboth
  exact Section.placeOf_inj hmem hmem' heq

end SectionsApart

/-- **Addresses are mapped faithfully.** Let all sections end before the largest address, and let
none cover an address of another one. Then every address has the same place, or fails alike,
whatever the order of the sections is; it has a place exactly if a section covers it; within a
section, places are as far apart as addresses; and different addresses have different places, if
no place in the file belongs to two sections either. Whatever the sections are, the place of an
address comes from a section that covers it, and its distance from the start of the section is
never negative.

**Proof sketch.** The search ends at a section that covers the address
(`exists_section_of_offsetIn`), and there is only one. -/
theorem addresses_in_file :
    (∀ sections : List Section, SectionsApart sections →
      (∀ sections', sections.Perm sections' →
        ∀ address, fileOffset sections' address = fileOffset sections address) ∧
      (∀ address, (∃ place, fileOffset sections address = .ok place) ↔
        ∃ s ∈ sections, address ∈ s.addresses) ∧
      (∀ s ∈ sections, ∀ address distance, address ∈ s.addresses →
        address + distance ∈ s.addresses →
          ∃ place, fileOffset sections address = .ok place ∧
            fileOffset sections (address + distance) = .ok (place + distance)) ∧
      ((sections.Pairwise fun s t => Disjoint s.places t.places) →
        ∀ address address' place, fileOffset sections address = .ok place →
          fileOffset sections address' = .ok place → address = address')) ∧
    ∀ (sections : List Section) (address : ℕ),
      checkedFileOffset sections address = Checked.plain (fileOffset sections address) ∧
      ∀ place, fileOffset sections address = .ok place →
        ∃ s ∈ sections, address ∈ s.addresses ∧ place = address - s.address + s.fileStart := by
  refine ⟨fun sections h => ⟨fun sections' => h.fileOffset_perm, fun address => ⟨?_, ?_⟩,
    fun s hs address distance hmem hmem' => ?_,
    fun hplaces address address' place => h.fileOffset_inj hplaces⟩,
    fun sections address => ⟨checkedFileOffset_eq sections address,
      fun place => exists_section_of_fileOffset⟩⟩
  · rintro ⟨place, hplace⟩
    obtain ⟨s, hs, hmem, -⟩ := exists_section_of_fileOffset hplace
    exact ⟨s, hs, hmem⟩
  · rintro ⟨s, hs, hmem⟩
    exact ⟨_, h.fileOffset_of_mem hs hmem⟩
  · refine ⟨_, h.fileOffset_of_mem hs hmem, ?_⟩
    rw [h.fileOffset_of_mem hs hmem', Section.placeOf_add hmem]

/-- A section that reaches beyond the largest address hides those behind it, so its place in the
order matters. -/
example : fileOffset [⟨0x1000, 8, 0, 8⟩, ⟨0xFFFFFFFF, 1, 8, 1⟩] 0x1004 = .ok 4 ∧
    fileOffset [⟨0xFFFFFFFF, 1, 8, 1⟩, ⟨0x1000, 8, 0, 8⟩] 0x1004 =
      .error (.malformed (.sectionOverflow 0xFFFFFFFF 1)) := by
  decide

/-- Three sections: one with more memory than contents, an empty one at the address of the third
one, and the third one, directly behind the first both in memory and in the file. -/
def adjacentSections : List Section :=
  [⟨0x2000, 0x1800, 0x200, 0x1600⟩, ⟨0x3800, 0, 0x2000, 0⟩, ⟨0x3800, 0x100, 0x1A00, 0x200⟩]

/-- The last address of the first section and the first one of the third lie side by side, in the
file as in memory, and the first address behind the third section has no place. The same holds in
the reverse order, and no other address has the place of one of them. -/
theorem addresses_in_file_adjacentSections :
    SectionsApart adjacentSections ∧
    (adjacentSections.Pairwise fun s t => Disjoint s.places t.places) ∧
    fileOffset adjacentSections.reverse 0x37FF = .ok 0x19FF ∧
    fileOffset adjacentSections.reverse 0x3800 = .ok 0x1A00 ∧
    fileOffset adjacentSections.reverse 0x39FF = .ok 0x1BFF ∧
    (¬∃ place, fileOffset adjacentSections 0x3A00 = .ok place) ∧
    (∀ address, fileOffset adjacentSections address = .ok 0x1A00 → address = 0x3800) ∧
    checkedFileOffset adjacentSections 0x3800 = Checked.plain (.ok 0x1A00) := by
  obtain ⟨hfaithful, hany⟩ := addresses_in_file
  have hapart : SectionsApart adjacentSections := by decide
  have hplaces : adjacentSections.Pairwise fun s t => Disjoint s.places t.places := by decide
  obtain ⟨hperm, hcovered, hdistance, hinj⟩ := hfaithful adjacentSections hapart
  have hreverse := hperm adjacentSections.reverse (List.reverse_perm _).symm
  have hlast : fileOffset adjacentSections 0x37FF = .ok 0x19FF := by decide
  have hfirst : fileOffset adjacentSections 0x3800 = .ok 0x1A00 := by decide
  obtain ⟨place, hplace, hfurther⟩ :=
    hdistance ⟨0x3800, 0x100, 0x1A00, 0x200⟩ (by decide) 0x3800 0x1FF (by decide) (by decide)
  obtain rfl : 0x1A00 = place := Except.ok.inj (hfirst.symm.trans hplace)
  refine ⟨hapart, hplaces, ?_, ?_, ?_, ?_, ?_, ?_⟩
  · rw [hreverse, hlast]
  · rw [hreverse, hfirst]
  · rw [hreverse]
    exact hfurther
  · rw [hcovered]
    decide
  · exact fun address haddress => hinj hplaces _ _ _ haddress hfirst
  · rw [(hany adjacentSections 0x3800).1, hfirst]

end TypeInventory
