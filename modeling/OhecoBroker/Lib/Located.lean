/-
Streams whose elements remember where they come from.  A stream that carries framed pieces of a
source mixes elements of its own (headers) with copies; each element is paired with the source
position it was copied from, if any.

* `plain`, `located`: elements of the stream's own, and copies of consecutive elements;
* `Backed`, `backed_located`: a copy is what the source holds at its position, so a run of copies
  is a piece of the source;
* `split_located`, `split_plain`: cutting a stream;
* `append_isPrefix_of_drop`: a copy of the source that goes on where it ends.
-/
import Mathlib.Tactic

namespace OhecoBroker.Lib

open List

variable {β : Type*}

/-- Elements that are not copies. -/
def plain (bs : List β) : List (β × Option ℕ) := bs.map fun b => (b, none)

/-- Copies of consecutive source elements, the first from position `off`. -/
def located : ℕ → List β → List (β × Option ℕ)
  | _, [] => []
  | off, b :: bs => (b, some off) :: located (off + 1) bs

/-- A copy is the element of `src` at its position, below `hi`. -/
def Backed (src : List β) (hi : ℕ) (t : β × Option ℕ) : Prop :=
  ∀ i, t.2 = some i → i < hi ∧ src[i]? = some t.1

/-! ### Lists of plain and located elements -/

@[simp] lemma plain_nil : plain ([] : List β) = [] := rfl

@[simp] lemma plain_append (as bs : List β) : plain (as ++ bs) = plain as ++ plain bs :=
  map_append

@[simp] lemma length_plain (bs : List β) : (plain bs).length = bs.length :=
  length_map ..

/-- The elements are what they were. -/
@[simp] lemma map_fst_plain (bs : List β) : (plain bs).map Prod.fst = bs := by
  rw [plain, map_map]
  exact map_id bs

lemma plain_injective : Function.Injective (plain : List β → List (β × Option ℕ)) := by
  intro as bs h
  rw [← map_fst_plain as, h, map_fst_plain]

@[simp] lemma located_nil (off : ℕ) : located off ([] : List β) = [] := rfl

@[simp] lemma length_located (off : ℕ) (bs : List β) : (located off bs).length = bs.length := by
  induction bs generalizing off with
  | nil => rfl
  | cons b bs ih => simp [located, ih]

/-- The copies are the source elements. -/
@[simp] lemma map_fst_located (off : ℕ) (bs : List β) : (located off bs).map Prod.fst = bs := by
  induction bs generalizing off with
  | nil => rfl
  | cons b bs ih => simp [located, ih]

lemma located_append (off : ℕ) (as bs : List β) :
    located off (as ++ bs) = located off as ++ located (off + as.length) bs := by
  induction as generalizing off with
  | nil => simp
  | cons a as ih =>
    simp only [cons_append, located, ih, length_cons]
    rw [Nat.add_right_comm, Nat.add_assoc]

lemma snd_ne_none_of_mem_located {off : ℕ} {bs : List β} {t : β × Option ℕ}
    (h : t ∈ located off bs) : t.2 ≠ none := by
  induction bs generalizing off with
  | nil => simp at h
  | cons b bs ih =>
    rcases mem_cons.mp h with rfl | h
    · simp
    · exact ih h

/-! ### Backed elements -/

/-- A source that grows backs what it backed. -/
lemma Backed.mono {src src' : List β} {hi hi' : ℕ} {t : β × Option ℕ} (h : Backed src hi t)
    (hsrc : src <+: src') (hhi : hi ≤ hi') : Backed src' hi' t := by
  intro i hi
  obtain ⟨hlt, hget⟩ := h i hi
  obtain ⟨rest, rfl⟩ := hsrc
  exact ⟨hlt.trans_le hhi, List.getElem?_append_left (List.getElem?_eq_some_iff.mp hget).1 ▸ hget⟩

/-- Plain elements need no backing. -/
lemma backed_plain (src : List β) (hi : ℕ) (bs : List β) : ∀ t ∈ plain bs, Backed src hi t := by
  intro t ht i hi
  obtain ⟨b, -, rfl⟩ := mem_map.mp ht
  simp at hi

lemma backed_located {src : List β} {hi off : ℕ} {bs : List β} :
    (∀ t ∈ located off bs, Backed src hi t) ↔
      bs <+: src.drop off ∧ (bs ≠ [] → off + bs.length ≤ hi) := by
  induction bs generalizing off with
  | nil => simp
  | cons b bs ih =>
    have hhead : Backed src hi (b, some off) ↔ off < hi ∧ src[off]? = some b := by
      simp [Backed]
    simp only [located, forall_mem_cons, hhead, ih]
    constructor
    · rintro ⟨⟨hlt, hget⟩, hpre, hlen⟩
      refine ⟨?_, fun _ => ?_⟩
      · obtain ⟨hbound, rfl⟩ := List.getElem?_eq_some_iff.mp hget
        rw [drop_eq_getElem_cons hbound]
        exact prefix_cons_inj _ |>.mpr hpre
      rcases bs with _ | ⟨c, cs⟩
      · simpa using hlt
      · have := hlen (by simp)
        simp only [length_cons] at this ⊢
        omega
    rintro ⟨hpre, hlen⟩
    have hle := hlen (by simp)
    have hbound : off < src.length := by
      have := hpre.length_le
      simp only [length_cons, length_drop] at this
      omega
    rw [drop_eq_getElem_cons hbound, cons_prefix_cons] at hpre
    obtain ⟨rfl, hpre⟩ := hpre
    simp only [length_cons] at hle
    exact ⟨⟨by omega, List.getElem?_eq_getElem hbound⟩, hpre, fun _ => by omega⟩

/-! ### Cutting and continuing -/

lemma split_located {ts rest tail : List (β × Option ℕ)} {off : ℕ} {bs : List β}
    (h : ts ++ rest = located off bs ++ tail) (hlen : ts.length ≤ bs.length) :
    ts = located off (bs.take ts.length) ∧
      rest = located (off + ts.length) (bs.drop ts.length) ++ tail := by
  have hsplit : located off bs
      = located off (bs.take ts.length) ++ located (off + ts.length) (bs.drop ts.length) := by
    conv_lhs => rw [← take_append_drop ts.length bs, located_append]
    rw [length_take_of_le hlen]
  rw [hsplit, append_assoc] at h
  exact append_inj h (by simp [hlen])

lemma split_plain {ts rest tail : List (β × Option ℕ)} {hs : List β}
    (h : ts ++ rest = plain hs ++ tail) (hlen : ts.length ≤ hs.length) :
    ts = plain (hs.take ts.length) ∧ rest = plain (hs.drop ts.length) ++ tail := by
  have hsplit : plain hs = plain (hs.take ts.length) ++ plain (hs.drop ts.length) := by
    rw [← plain_append, take_append_drop]
  rw [hsplit, append_assoc] at h
  exact append_inj h (by simp [hlen])

lemma append_isPrefix_of_drop {as bs src : List β} (has : as <+: src)
    (hbs : bs <+: src.drop as.length) : as ++ bs <+: src := by
  obtain ⟨rest, rfl⟩ := has
  rw [drop_left] at hbs
  exact (prefix_append_right_inj as).mpr hbs

end OhecoBroker.Lib
