import Mathlib.Data.List.Induction
import ThreadSlots.Json.Basic

/-!
# Values that text can carry

`Json.Fits depth` says what reading yields: containers nest at most `depth` deep, integers fit 64
bits, and the fields of an object are sorted by name without repetition. `Json.FloatFree` says that a
value has no floating-point numbers, which are the only values whose text is rounded.

Sorting fields keeps what each name stands for (`lookup_sortFields`) if no name is repeated, and
changes nothing if the fields are sorted already (`sortFields_eq_self`).
-/

namespace ThreadSlots.Json

/-- The name of every field is before the names of the fields after it. -/
def Sorted (fields : List (String × Json)) : Prop := fields.Pairwise (·.1 < ·.1)

inductive FloatFree : Json → Prop where
  | null : FloatFree .null
  | bool (b : Bool) : FloatFree (.bool b)
  | int (i : Int) : FloatFree (.int i)
  | str (s : String) : FloatFree (.str s)
  | arr {vs : List Json} (h : ∀ v ∈ vs, FloatFree v) : FloatFree (.arr vs)
  | obj {fs : List (String × Json)} (h : ∀ f ∈ fs, FloatFree f.2) : FloatFree (.obj fs)

inductive Fits : Nat → Json → Prop where
  | null (d : Nat) : Fits d .null
  | bool (d : Nat) (b : Bool) : Fits d (.bool b)
  | int (d : Nat) {i : Int} (hlow : -9223372036854775808 ≤ i) (hhigh : i ≤ maxInteger) :
    Fits d (.int i)
  | float (d : Nat) (negative : Bool) (x : Decimal.Magnitude) : Fits d (.float negative x)
  | str (d : Nat) (s : String) : Fits d (.str s)
  | arr {d : Nat} {vs : List Json} (h : ∀ v ∈ vs, Fits d v) : Fits (d + 1) (.arr vs)
  | obj {d : Nat} {fs : List (String × Json)} (hs : Sorted fs) (h : ∀ f ∈ fs, Fits d f.2) :
    Fits (d + 1) (.obj fs)

/-! ## Setting a field -/

section

variable {name k : String} {v : Json} {fs : List (String × Json)}

theorem mem_setField {f : String × Json} (h : f ∈ setField k v fs) : f = (k, v) ∨ f ∈ fs := by
  induction fs with
  | nil => simpa [setField] using h
  | cons g fs ih =>
    obtain ⟨n, w⟩ := g
    simp only [setField] at h
    split at h
    · next he =>
      subst he
      rcases List.mem_cons.1 h with rfl | h
      · exact .inl rfl
      · exact .inr (List.mem_cons_of_mem _ h)
    · split at h
      · exact List.mem_cons.1 h
      · rcases List.mem_cons.1 h with rfl | h
        · exact .inr (List.mem_cons_self ..)
        · rcases ih h with rfl | h
          · exact .inl rfl
          · exact .inr (List.mem_cons_of_mem _ h)

theorem Sorted.setField (h : Sorted fs) : Sorted (setField k v fs) := by
  induction fs with
  | nil => simp [Json.setField, Sorted]
  | cons g fs ih =>
    obtain ⟨n, w⟩ := g
    obtain ⟨hn, hfs⟩ := List.pairwise_cons.1 h
    simp only [Json.setField]
    split
    · next he =>
      subst he
      exact List.pairwise_cons.2 ⟨hn, hfs⟩
    · next hne =>
      split
      · next hlt =>
        refine List.pairwise_cons.2 ⟨?_, h⟩
        intro f hf
        rcases List.mem_cons.1 hf with rfl | hf
        · exact hlt
        · exact String.lt_trans hlt (hn f hf)
      · next hnlt =>
        refine List.pairwise_cons.2 ⟨?_, ih hfs⟩
        intro f hf
        rcases mem_setField hf with rfl | hf
        · show n < k
          grind
        · exact hn f hf

theorem lookup_cons (g : String × Json) :
    (g :: fs).lookup name = if name = g.1 then some g.2 else fs.lookup name := by
  rw [List.lookup_cons]
  by_cases h : name = g.1
  · simp [h]
  · have hb : (name == g.1) = false := beq_false_of_ne h
    simp [hb, h]

theorem lookup_setField :
    (setField k v fs).lookup name = if name = k then some v else fs.lookup name := by
  induction fs with
  | nil => simp only [setField, lookup_cons, List.lookup_nil]
  | cons g fs ih =>
    obtain ⟨n, w⟩ := g
    simp only [setField]
    split
    · next he =>
      subst he
      simp only [lookup_cons]
      split <;> rfl
    · next hne =>
      split
      · simp only [lookup_cons]
      · simp only [lookup_cons, ih]
        by_cases hn : name = n
        · subst hn
          simp [Ne.symm hne]
        · simp [hn]

/-- A field whose name comes last is put at the end. -/
theorem setField_eq_append (h : ∀ f ∈ fs, f.1 < k) : setField k v fs = fs ++ [(k, v)] := by
  induction fs with
  | nil => rfl
  | cons g fs ih =>
    obtain ⟨n, w⟩ := g
    have hlt : n < k := h _ (List.mem_cons_self ..)
    have hne : k ≠ n := fun he => String.lt_irrefl n (he ▸ hlt)
    have hnlt : ¬k < n := String.lt_asymm hlt
    simp only [setField, hne, hnlt, if_false]
    rw [ih fun f hf => h f (List.mem_cons_of_mem _ hf)]
    rfl

end

/-! ## Sorting fields -/

section

variable {fs : List (String × Json)}

theorem sortFields_append_singleton (fs : List (String × Json)) (f : String × Json) :
    sortFields (fs ++ [f]) = setField f.1 f.2 (sortFields fs) := by
  simp [sortFields]

theorem sorted_sortFields (fs : List (String × Json)) : Sorted (sortFields fs) := by
  induction fs using List.reverseRecOn with
  | nil => exact List.Pairwise.nil
  | append_singleton fs f ih =>
    rw [sortFields_append_singleton]
    exact ih.setField

theorem mem_of_mem_sortFields {f : String × Json} (h : f ∈ sortFields fs) : f ∈ fs := by
  induction fs using List.reverseRecOn with
  | nil => exact h
  | append_singleton fs g ih =>
    rw [sortFields_append_singleton] at h
    rcases mem_setField h with rfl | h
    · exact List.mem_append_right _ (List.mem_singleton_self g)
    · exact List.mem_append_left _ (ih h)

/-- If no name is repeated, sorting keeps what each name stands for. -/
theorem lookup_sortFields (h : (fs.map (·.1)).Nodup) (name : String) :
    (sortFields fs).lookup name = fs.lookup name := by
  induction fs using List.reverseRecOn with
  | nil => rfl
  | append_singleton fs g ih =>
    rw [List.map_append, List.nodup_append] at h
    obtain ⟨hfs, -, hdisjoint⟩ := h
    rw [sortFields_append_singleton, lookup_setField, ih hfs, List.lookup_append, lookup_cons]
    split
    · next he =>
      subst he
      have hnone : fs.lookup g.1 = none := by
        rw [List.lookup_eq_none_iff]
        intro f hf
        have hne : f.1 ≠ g.1 := hdisjoint _ (List.mem_map_of_mem hf) _ (List.mem_singleton_self _)
        simpa using hne.symm
      rw [hnone, Option.none_or]
    · rw [List.lookup_nil, Option.or_none]

theorem sortFields_eq_self (h : Sorted fs) : sortFields fs = fs := by
  induction fs using List.reverseRecOn with
  | nil => rfl
  | append_singleton fs g ih =>
    obtain ⟨hfs, -, hlast⟩ := List.pairwise_append.1 h
    rw [sortFields_append_singleton, ih hfs]
    exact setField_eq_append fun f hf => hlast f hf g (List.mem_singleton_self g)

theorem Fits.record {d : Nat} (h : ∀ f ∈ fs, Fits d f.2) : Fits (d + 1) (record fs) :=
  .obj (sorted_sortFields fs) fun f hf => h f (mem_of_mem_sortFields hf)

theorem FloatFree.record (h : ∀ f ∈ fs, FloatFree f.2) : FloatFree (record fs) :=
  .obj fun f hf => h f (mem_of_mem_sortFields hf)

end

end ThreadSlots.Json
