import Mathlib.Data.List.TakeWhile
import Minotaur.Base.Text
import Minotaur.Base.Utf8

/-!
Lossy decoding commutes with cutting a text at ASCII: the parts of the decoded
text are the decoded parts of the bytes.
-/

namespace Utf8

open Text

/-- A character that is still owed comes out above ASCII. -/
theorem head_decodeFrom_some {p : Owing} (h : p.Sound) (bytes : List UInt8) {c : Char}
    (hhead : (decodeFrom (some p) bytes).head? = some c) : 0x80 ≤ c.toNat := by
  induction bytes generalizing p with
  | nil =>
      obtain rfl : replacement = c := by simpa [decodeFrom] using hhead
      rw [toNat_replacement]
      omega
  | cons b rest ih =>
      rw [decodeFrom_cons] at hhead
      have hsound : Sound (some p) := by
        intro other hother
        obtain rfl := Option.some.inj hother
        exact h
      have hnext := sound_feed hsound b
      have hemits := @feed_emits (some p) hsound b c
      simp only [feed] at hhead hnext hemits
      split_ifs at hhead hnext hemits with hrange hlast
      · obtain rfl : Char.ofNat (p.acc * 64 + (b.toNat - 0x80)) = c := by simpa using hhead
        have hlow := h.lo_ge
        rcases hemits List.mem_cons_self with ⟨_, hascii⟩ | hhigh
        · omega
        · exact hhigh
      · exact ih (hnext _ rfl) hhead
      · obtain rfl : replacement = c := by simpa using hhead
        rw [toNat_replacement]
        omega

/-- Only an ASCII byte at the front decodes to an ASCII character there. -/
theorem head_lossy_ascii {b : UInt8} (hascii : b.toNat < 0x80) {bytes : List UInt8}
    (hhead : (lossy bytes).head? = some (ascii b)) : bytes.head? = some b := by
  cases bytes with
  | nil => simp at hhead
  | cons first rest =>
      by_cases hfirst : first.toNat < 0x80
      · rw [lossy_cons_ascii hfirst, List.head?_cons, Option.some.injEq] at hhead
        rw [List.head?_cons, ascii_inj hfirst hascii hhead]
      · exfalso
        have hhigh : 0x80 ≤ (ascii b).toNat := by
          have hsound := sound_lead first.toNat
          rw [lossy, decodeFrom_cons] at hhead
          simp only [feed, start, if_neg hfirst] at hhead
          cases hlead : lead first.toNat with
          | none =>
              rw [hlead] at hhead
              have hreplacement : replacement = ascii b := by simpa using hhead
              rw [← hreplacement, toNat_replacement]
              omega
          | some p =>
              rw [hlead] at hhead
              exact head_decodeFrom_some (hsound p hlead) rest hhead
        rw [toNat_ascii hascii] at hhigh
        omega

section Split

variable {a b : UInt8}

theorem lossy_splitOn (hb : b.toNat < 0x80) (bytes : List UInt8) :
    (lossy bytes).splitOn (ascii b) = (bytes.splitOn b).map lossy := by
  induction hsize : bytes.length using Nat.strongRecOn generalizing bytes with
  | _ size ih =>
      by_cases hmem : b ∈ bytes
      · obtain ⟨first, second, rfl⟩ := List.append_of_mem hmem
        rw [List.length_append, List.length_cons] at hsize
        rw [lossy_append_ascii hb, List.splitOn_append_cons_self, List.splitOn_append_cons_self,
          List.map_append, ih first.length (by omega) first rfl,
          ih second.length (by omega) second rfl]
      · have hlossy : ascii b ∉ lossy bytes := fun h => hmem ((mem_lossy_ascii hb bytes).mp h)
        rw [List.splitOn_eq_singleton hmem, List.splitOn_eq_singleton hlossy, List.map_singleton]

theorem pairFree_lossy (ha : a.toNat < 0x80) (hb : b.toNat < 0x80) {bytes : List UInt8}
    (hfree : PairFree a b bytes) : PairFree (ascii a) (ascii b) (lossy bytes) := by
  induction hsize : bytes.length using Nat.strongRecOn generalizing bytes with
  | _ size ih =>
      by_cases hmem : a ∈ bytes
      · obtain ⟨first, second, rfl, hfirst⟩ := List.eq_append_cons_of_mem hmem
        obtain ⟨hhead, hsecond⟩ := (pairFree_append_cons hfirst second).mp hfree
        rw [List.length_append, List.length_cons] at hsize
        have hlossy : ascii a ∉ lossy first := fun h => hfirst ((mem_lossy_ascii ha first).mp h)
        rw [lossy_append_ascii ha, pairFree_append_cons hlossy]
        exact ⟨fun h => hhead (head_lossy_ascii hb h), ih second.length (by omega) hsecond rfl⟩
      · rintro ⟨before, after, heq⟩
        apply hmem
        rw [← mem_lossy_ascii ha, ← heq]
        simp

theorem lossy_splitPair (ha : a.toNat < 0x80) (hb : b.toNat < 0x80) (hne : a ≠ b)
    (bytes : List UInt8) :
    splitPair (ascii a) (ascii b) (lossy bytes) = (splitPair a b bytes).map lossy := by
  induction hsize : bytes.length using Nat.strongRecOn generalizing bytes with
  | _ size ih =>
      rcases pairFree_or_append a b bytes with hfree | ⟨first, rest, hfree, rfl⟩
      · rw [splitPair_of_pairFree hfree, splitPair_of_pairFree (pairFree_lossy ha hb hfree),
          List.map_singleton]
      · simp only [List.length_append, List.length_cons] at hsize
        have hchars : ascii a ≠ ascii b := fun h => hne (ascii_inj ha hb h)
        rw [lossy_append_ascii ha, lossy_cons_ascii hb,
          splitPair_append hchars (pairFree_lossy ha hb hfree), splitPair_append hne hfree,
          ih rest.length (by omega) rest rfl, List.map_cons]

/-- Cutting before the first of some ASCII bytes. -/
theorem lossy_takeWhile {stops : List UInt8} (hstops : ∀ b ∈ stops, b.toNat < 0x80)
    (bytes : List UInt8) :
    (lossy bytes).takeWhile (fun c => !(stops.map ascii).contains c) =
      lossy (bytes.takeWhile fun b => !stops.contains b) := by
  have hkept : ∀ kept : List UInt8, (∀ b ∈ kept, !stops.contains b) →
      ∀ c ∈ lossy kept, !(stops.map ascii).contains c := by
    intro kept hall c hc
    simp only [Bool.not_eq_true', List.contains_eq_mem, decide_eq_false_iff_not, List.mem_map,
      not_exists, not_and] at hall ⊢
    rintro b hb rfl
    exact hall b ((mem_lossy_ascii (hstops b hb) kept).mp hc) hb
  have hall : ∀ b ∈ bytes.takeWhile fun b => !stops.contains b, !stops.contains b := by
    intro b hb
    exact @List.mem_takeWhile_imp _ (fun b => !stops.contains b) bytes b hb
  cases hrest : bytes.dropWhile fun b => !stops.contains b with
  | nil =>
      have hwhole : bytes.takeWhile (fun b => !stops.contains b) = bytes := by
        rw [← List.append_nil (bytes.takeWhile _), ← hrest, List.takeWhile_append_dropWhile]
      rw [hwhole] at hall ⊢
      exact List.takeWhile_eq_self_iff.mpr (hkept bytes hall)
  | cons stop rest =>
      have hstop : stop ∈ stops := by
        have hhead := List.head?_dropWhile_not (fun b => !stops.contains b) bytes
        rw [hrest] at hhead
        simpa using hhead
      have hsplit : bytes = bytes.takeWhile (fun b => !stops.contains b) ++ stop :: rest := by
        rw [← hrest, List.takeWhile_append_dropWhile]
      generalize bytes.takeWhile (fun b => !stops.contains b) = kept at hall hsplit ⊢
      rw [hsplit, lossy_append_ascii (hstops stop hstop),
        List.takeWhile_append_of_pos (hkept kept hall), List.takeWhile_cons_of_neg]
      · exact List.append_nil _
      · simpa using ⟨stop, hstop, rfl⟩

end Split

end Utf8
