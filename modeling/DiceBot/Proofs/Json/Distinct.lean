import Mathlib.Data.List.Nodup
import DiceBot.Proofs.Json.Float
import DiceBot.Proofs.Json.RoundTrip

/-!
# Objects without repeated names

In a value that was read no object has two members of one name, since a repeated name takes the
place of the earlier one. A value of this kind is read back as itself.

## Main definitions

* `Json.IsDistinct`: the members of every object have distinct names

## Main results

* `Json.isDistinct_of_read`: a value that was read
* `Json.reread_of_isDistinct`: such a value is read back where it was written
-/

namespace DiceBot

namespace Json

mutual

/-- Whether the members of every object of a value have distinct names. -/
def IsDistinct : Json → Prop
  | array items => ItemsDistinct items
  | object members => (members.map Prod.fst).Nodup ∧ MembersDistinct members
  | _ => True

/-- Whether the objects of all items have members with distinct names. -/
def ItemsDistinct : List Json → Prop
  | [] => True
  | j :: rest => IsDistinct j ∧ ItemsDistinct rest

/-- Whether the objects of all members have members with distinct names. -/
def MembersDistinct : List (Text × Json) → Prop
  | [] => True
  | (_, j) :: rest => IsDistinct j ∧ MembersDistinct rest

end

variable {members : List (Text × Json)} {name : Text} {j : Json}

theorem itemsDistinct_iff {items : List Json} :
    ItemsDistinct items ↔ ∀ j ∈ items, j.IsDistinct := by
  induction items with
  | nil => exact ⟨nofun, fun _ => trivial⟩
  | cons j items ih => exact (and_congr_right fun _ => ih).trans List.forall_mem_cons.symm

theorem membersDistinct_iff : MembersDistinct members ↔ ∀ m ∈ members, m.2.IsDistinct := by
  induction members with
  | nil => exact ⟨nofun, fun _ => trivial⟩
  | cons m members ih =>
    rw [List.forall_mem_cons, ← ih]
    exact Iff.rfl

theorem isDistinct_nil : (object []).IsDistinct :=
  ⟨List.nodup_nil, trivial⟩

/-! ## One more member -/

theorem put_of_notMem (j : Json) (h : name ∉ members.map Prod.fst) :
    put members name j = members ++ [(name, j)] := by
  induction members with
  | nil => rfl
  | cons m members ih =>
    rw [List.map_cons, List.mem_cons, not_or] at h
    obtain ⟨hname, hrest⟩ := h
    rw [put, if_neg (Ne.symm hname), ih hrest, List.cons_append]

theorem map_fst_put_of_mem (j : Json) (h : name ∈ members.map Prod.fst) :
    (put members name j).map Prod.fst = members.map Prod.fst := by
  induction members with
  | nil => cases h
  | cons m members ih =>
    rw [put]
    split
    · rename_i hname
      simp [hname]
    · rename_i hname
      rw [List.map_cons, List.map_cons, ih ((List.mem_cons.mp h).resolve_left (Ne.symm hname))]

theorem nodup_put (j : Json) (h : (members.map Prod.fst).Nodup) :
    ((put members name j).map Prod.fst).Nodup := by
  by_cases hname : name ∈ members.map Prod.fst
  · rwa [map_fst_put_of_mem j hname]
  · rw [put_of_notMem j hname, List.map_append, List.map_singleton, ← List.concat_eq_append]
    exact h.concat hname

theorem eq_or_mem_of_mem_put {m : Text × Json} (h : m ∈ put members name j) :
    m = (name, j) ∨ m ∈ members := by
  induction members with
  | nil => exact .inl (List.mem_singleton.mp h)
  | cons other members ih =>
    rw [put] at h
    split at h
    · rcases List.mem_cons.mp h with hm | hm
      · exact .inl hm
      · exact .inr (List.mem_cons_of_mem _ hm)
    · rcases List.mem_cons.mp h with hm | hm
      · exact .inr (hm ▸ List.mem_cons_self)
      · exact (ih hm).imp_right (List.mem_cons_of_mem _)

/-- One more member keeps an object without repeated names. -/
theorem isDistinct_put (h : (object members).IsDistinct) (hj : j.IsDistinct) :
    (object (put members name j)).IsDistinct := by
  obtain ⟨hnames, hmembers⟩ := h
  refine ⟨nodup_put j hnames, membersDistinct_iff.mpr fun m hm => ?_⟩
  rcases eq_or_mem_of_mem_put hm with rfl | hm
  · exact hj
  · exact membersDistinct_iff.mp hmembers m hm

/-! ## What was read -/

theorem isDistinct_of_readMagnitude {negative : Bool} {t rest : Text}
    (h : readMagnitude negative t = .ok (j, rest)) : j.IsDistinct := by
  unfold readMagnitude at h
  dsimp only at h
  generalize (if (takeAsciiDigits t).1.head? = some (CodePoint.ofChar '0') then
    ((takeAsciiDigits t).1.take 1, (takeAsciiDigits t).1.drop 1 ++ (takeAsciiDigits t).2)
    else ((takeAsciiDigits t).1, (takeAsciiDigits t).2)) = parts at h
  split at h
  · cases h
  split at h
  · split at h
    · cases h
      trivial
    · cases h
  · cases h
    trivial

theorem isDistinct_of_readPlain {t rest : Text} (h : readPlain t = .ok (j, rest)) :
    j.IsDistinct := by
  have hwords : ∀ w ∈ words, w.2.IsDistinct := by simp [words, IsDistinct]
  unfold readPlain at h
  split at h
  · rename_i hword
    cases h
    obtain ⟨w, hw, hresult⟩ := List.exists_of_findSome?_eq_some hword
    obtain ⟨behind, -, hpair⟩ := Option.map_eq_some_iff.mp hresult
    cases hpair
    exact hwords w hw
  · split at h
    · split at h
      · exact isDistinct_of_readMagnitude h
      · exact isDistinct_of_readMagnitude h
    · cases h

mutual

theorem isDistinct_of_readValue (fuel : Nat) {j : Json} {t rest : Text}
    (h : readValue fuel t = .ok (j, rest)) : j.IsDistinct := by
  cases fuel with
  | zero => cases h
  | succ fuel =>
    unfold readValue at h
    split at h
    · cases h
    split at h
    · obtain ⟨⟨content, behind⟩, -, h⟩ := bind_eq_ok_iff.mp h
      cases h
      trivial
    split at h
    · dsimp only at h
      split at h
      · cases h
        trivial
      · obtain ⟨⟨items, behind⟩, hitems, h⟩ := bind_eq_ok_iff.mp h
        cases h
        exact itemsDistinct_of_readItems fuel hitems
    split at h
    · dsimp only at h
      split at h
      · cases h
        exact isDistinct_nil
      · obtain ⟨⟨members, behind⟩, hmembers, h⟩ := bind_eq_ok_iff.mp h
        cases h
        exact isDistinct_of_readMembers fuel isDistinct_nil hmembers
    · exact isDistinct_of_readPlain h

theorem itemsDistinct_of_readItems (fuel : Nat) {items : List Json} {t rest : Text}
    (h : readItems fuel t = .ok (items, rest)) : ItemsDistinct items := by
  cases fuel with
  | zero => cases h
  | succ fuel =>
    unfold readItems at h
    obtain ⟨⟨item, behind⟩, hitem, h⟩ := bind_eq_ok_iff.mp h
    have hfirst := isDistinct_of_readValue fuel hitem
    dsimp only at h
    split at h
    · split at h
      · cases h
        exact ⟨hfirst, trivial⟩
      split at h
      · obtain ⟨⟨items, behind⟩, hitems, h⟩ := bind_eq_ok_iff.mp h
        cases h
        exact ⟨hfirst, itemsDistinct_of_readItems fuel hitems⟩
      · cases h
    · cases h

theorem isDistinct_of_readMembers (fuel : Nat) {before members : List (Text × Json)}
    {t rest : Text} (hbefore : (object before).IsDistinct)
    (h : readMembers fuel before t = .ok (members, rest)) : (object members).IsDistinct := by
  cases fuel with
  | zero => cases h
  | succ fuel =>
    unfold readMembers at h
    split at h
    · split at h
      · obtain ⟨⟨name, colon⟩, -, h⟩ := bind_eq_ok_iff.mp h
        dsimp only at h
        split at h
        · split at h
          · obtain ⟨⟨value, behind⟩, hvalue, h⟩ := bind_eq_ok_iff.mp h
            have hput : (object (put before name value)).IsDistinct :=
              isDistinct_put hbefore (isDistinct_of_readValue fuel hvalue)
            dsimp only at h
            split at h
            · split at h
              · cases h
                exact hput
              split at h
              · exact isDistinct_of_readMembers fuel hput h
              · cases h
            · cases h
          · cases h
        · cases h
      · cases h
    · cases h

end

/-- In a document that was read no object has a repeated name. -/
theorem isDistinct_of_read {t : Text} (h : read t = .ok j) : j.IsDistinct := by
  obtain ⟨⟨value, rest⟩, hvalue, h⟩ := bind_eq_ok_iff.mp h
  dsimp only at h
  split at h
  · cases h
    exact isDistinct_of_readValue _ hvalue
  · cases h

/-! ## What is read back -/

mutual

/-- A value without repeated names is read back where it was written. -/
theorem reread_of_isDistinct (j : Json) (h : j.IsDistinct) : j.reread = j := by
  cases j with
  | null | bool _ | integer _ | text _ => rfl
  | float x => rw [reread, rereadFloat_eq]
  | array items => rw [reread, rereadItems_of_itemsDistinct items h]
  | object members => rw [reread, rereadMembers_of_isDistinct [] members h.1 h.2, List.nil_append]

theorem rereadItems_of_itemsDistinct (items : List Json) (h : ItemsDistinct items) :
    rereadItems items = items := by
  cases items with
  | nil => rfl
  | cons j items =>
    rw [rereadItems, reread_of_isDistinct j h.1, rereadItems_of_itemsDistinct items h.2]

theorem rereadMembers_of_isDistinct (before members : List (Text × Json))
    (hnames : ((before ++ members).map Prod.fst).Nodup) (h : MembersDistinct members) :
    rereadMembers before members = before ++ members := by
  cases members with
  | nil => exact (List.append_nil before).symm
  | cons m members =>
    cases m with | mk name j
    have hfresh : name ∉ before.map Prod.fst := by
      rw [List.map_append] at hnames
      exact fun hmem => (List.nodup_append.mp hnames).2.2 name hmem name List.mem_cons_self rfl
    rw [rereadMembers, reread_of_isDistinct j h.1, put_of_notMem j hfresh,
      rereadMembers_of_isDistinct _ members (by rwa [List.append_assoc]) h.2, List.append_assoc]
    rfl

end

end Json

end DiceBot
