import ThreadSlots.Json.Parser
import ThreadSlots.Proofs.Json.Values

/-!
# What reading yields

A value that was read nests no deeper than the reader goes, its integers fit 64 bits, and its objects
are sorted (`fits_of_value`). So what was read without floating-point numbers can be written and read
again.
-/

namespace ThreadSlots.Json

variable {d : Nat} {v : Json} {cs rest : List Char}

/-! ## Numbers -/

theorem digitValue?_le {c : Char} {n : Nat} (h : digitValue? c = some n) : n ≤ 9 := by
  unfold digitValue? at h
  split at h
  · next hc =>
    cases h
    have hnat : c.toNat ≤ '9'.toNat := hc.2
    have hnine : '9'.toNat = 57 := rfl
    have hzero : '0'.toNat = 48 := rfl
    omega
  · cases h

theorem gather_le {n : Nat} (h : n ≤ maxInteger) (count : Nat) (cs : List Char) :
    (gather n count cs).1 ≤ maxInteger := by
  induction cs generalizing n count with
  | nil => exact h
  | cons c cs ih =>
    rw [gather]
    split
    · exact h
    · split
      · next hle => exact ih hle _
      · exact h

theorem fits_decimal {negative : Bool} {n : Nat} {exponent : Int}
    (h : decimal negative n exponent = some v) : Fits d v := by
  simp only [decimal, Option.bind_eq_bind, Option.bind_eq_some_iff, Option.pure_def,
    Option.some.injEq] at h
  obtain ⟨-, -, -, -, rfl⟩ := h
  exact .float d _ _

theorem fits_exponentPart {negative : Bool} {n : Nat} {exponent : Int}
    (h : exponentPart negative n exponent cs = some (v, rest)) : Fits d v := by
  cases cs with
  | nil =>
    obtain ⟨w, hw, he⟩ := Option.map_eq_some_iff.1 h
    cases he
    exact fits_decimal hw
  | cons c cs =>
    have hmap {k : Int} {after : List Char}
        (h : (decimal negative n k).map (·, after) = some (v, rest)) : Fits d v := by
      obtain ⟨w, hw, he⟩ := Option.map_eq_some_iff.1 h
      cases he
      exact fits_decimal hw
    simp only [exponentPart] at h
    split at h
    · split at h
      all_goals
        split at h
        · cases h
        · exact hmap h
    · exact hmap h

theorem fits_numberRest {negative : Bool} {n : Nat} {exponent : Int}
    (h : numberRest negative n exponent cs = some (v, rest)) : Fits d v := by
  unfold numberRest at h
  split at h
  · unfold fractionPart at h
    split at h
    · exact fits_exponentPart h
    · cases h
  · exact fits_exponentPart h

theorem fits_integer {negative : Bool} {n : Nat} (hn : n ≤ maxInteger)
    (h : integer negative n = some v) : Fits d v := by
  unfold integer at h
  split at h
  · cases h
    exact .int d (by omega) (by omega)
  · split at h
    · next hrange =>
      cases h
      exact .int d (by omega) (by simp only [maxInteger]; omega)
    · exact fits_decimal h

theorem fits_unsigned {negative : Bool} (h : unsigned negative cs = some (v, rest)) : Fits d v := by
  unfold unsigned at h
  split at h
  · cases h
  · split at h
    · cases h
    · split at h
      · cases h
      · split at h
        · exact fits_numberRest h
        · obtain ⟨w, hw, he⟩ := Option.map_eq_some_iff.1 h
          cases he
          exact fits_integer (Nat.zero_le _) hw
    · next c cs _ n _ hdigit =>
      have hle : n ≤ maxInteger := Nat.le_trans (digitValue?_le hdigit) (by decide)
      have hgather := gather_le hle 1 cs
      dsimp only at h
      split at h
      · exact fits_numberRest h
      · obtain ⟨w, hw, he⟩ := Option.map_eq_some_iff.1 h
        cases he
        exact fits_integer hgather hw

theorem fits_number (h : number cs = some (v, rest)) : Fits d v := by
  unfold number at h
  split at h
  · exact fits_unsigned h
  · exact fits_unsigned h

theorem fits_scalar (h : scalar cs = some (v, rest)) : Fits d v := by
  unfold scalar at h
  split at h
  · cases h
    exact .null d
  · cases h
    exact .bool d true
  · cases h
    exact .bool d false
  · obtain ⟨⟨s, after⟩, -, he⟩ := Option.map_eq_some_iff.1 h
    cases he
    exact .str d s
  · exact fits_number h

/-! ## Containers -/

section

variable {item : List Char → Reading Json}
  (hitem : ∀ cs v rest, item cs = some (v, rest) → Fits d v)

include hitem in
theorem fits_of_elements {fuel : Nat} {vs : List Json} (h : elements item fuel cs = some (vs, rest)) :
    ∀ v ∈ vs, Fits d v := by
  induction fuel generalizing cs vs with
  | zero => cases h
  | succ fuel ih =>
    rw [elements] at h
    split at h
    · cases h
    · next v after hv =>
      split at h
      · obtain ⟨⟨us, after'⟩, hus, he⟩ := Option.map_eq_some_iff.1 h
        cases he
        exact List.forall_mem_cons.2 ⟨hitem _ _ _ hv, ih hus⟩
      · cases h
        exact List.forall_mem_singleton.2 (hitem _ _ _ hv)
      · cases h

include hitem in
theorem fits_of_fields {fuel : Nat} {fs : List (String × Json)}
    (h : fields item fuel cs = some (fs, rest)) : ∀ f ∈ fs, Fits d f.2 := by
  induction fuel generalizing cs fs with
  | zero => cases h
  | succ fuel ih =>
    rw [fields] at h
    split at h
    · split at h
      · cases h
      · split at h
        · split at h
          · cases h
          · next v after hv =>
            split at h
            · obtain ⟨⟨gs, after'⟩, hgs, he⟩ := Option.map_eq_some_iff.1 h
              cases he
              exact List.forall_mem_cons.2 ⟨hitem _ _ _ hv, ih hgs⟩
            · cases h
              exact List.forall_mem_singleton.2 (hitem _ _ _ hv)
            · cases h
        · cases h
    · cases h

include hitem in
theorem fits_array (h : array item cs = some (v, rest)) : Fits (d + 1) v := by
  unfold array at h
  split at h
  · cases h
    exact .arr (List.forall_mem_nil _)
  · obtain ⟨⟨vs, after⟩, hvs, he⟩ := Option.map_eq_some_iff.1 h
    cases he
    exact .arr (fits_of_elements hitem hvs)

include hitem in
theorem fits_object (h : object item cs = some (v, rest)) : Fits (d + 1) v := by
  unfold object at h
  split at h
  · cases h
    exact .obj List.Pairwise.nil (List.forall_mem_nil _)
  · obtain ⟨⟨fs, after⟩, hfs, he⟩ := Option.map_eq_some_iff.1 h
    cases he
    exact .record (fits_of_fields hitem hfs)

end

theorem fits_of_value (h : value d cs = some (v, rest)) : Fits d v := by
  induction d generalizing cs v rest with
  | zero => exact fits_scalar h
  | succ d ih =>
    rw [value] at h
    split at h
    · exact fits_array (fun _ _ _ => ih) h
    · exact fits_object (fun _ _ _ => ih) h
    · exact fits_scalar h

theorem fits_of_parse? {s : String} (h : parse? s = some v) : Fits nestingLimit v := by
  unfold parse? ofChars? at h
  split at h
  · next w after hw =>
    split at h
    · cases h
      exact fits_of_value hw
    · cases h
  · cases h

end ThreadSlots.Json
