import VMAccel.AcceleratorRoster

/-!
# Identifiers that are held by one object

As long as no reply for a queue is lost, an identifier is held by at most one object at a time and
is active while it is held. What is released is always what the object has obtained.
-/

namespace VMAccel.Roster

open StepSystem IdentifierDB

variable {R R' : Roster} {o : Holder} {id : VMAccelId}

/-- No identifier is held twice, and every object that is alive holds its own, unless there was
none left for it. -/
structure Ids (R : Roster) : Prop where
  balanced : R.refObjectDB.Balanced
  addressable : R.refObjectDB.Addressable
  held_active : ∀ p ∈ R.held, R.refObjectDB.Active p.2
  nodup : (R.held.map Prod.snd).Nodup
  context_held : ∀ n id, R.contexts[n]? = some (some id) →
    id = invalidId ∨ (.context n, id) ∈ R.held
  surface_held : ∀ k id, R.surfaces[k]? = some (some id) →
    id = invalidId ∨ (.surface k, id) ∈ R.held

def grant (R : Roster) (o : Holder) (id : VMAccelId) : Roster :=
  { R with refObjectDB := R.refObjectDB.take id.toNat, held := (o, id) :: R.held }

def release (R : Roster) (o : Holder) (id : VMAccelId) : Roster :=
  { R with refObjectDB := R.refObjectDB.give id.toNat, held := R.held.erase (o, id) }

theorem not_active_invalidId {db : IdentifierDB} (h : db.Addressable) : ¬ db.Active invalidId := by
  intro hact
  have hlt := BitVec.lt_def.mp hact.1
  have hsize : db.size.toNat + 31 < 2 ^ 32 := h
  change 2 ^ 32 - 1 < _ at hlt
  omega

structure Free (R : Roster) (id : VMAccelId) : Prop where
  ne_invalidId : id ≠ invalidId
  not_active : ¬ R.refObjectDB.Active id
  index_lt : id.toNat / 32 < R.refObjectDB.bits.length
  bit_clear : R.refObjectDB.bit id.toNat = false
  lt_size : id.toNat < R.refObjectDB.size.toNat
  free_ne_zero : R.refObjectDB.free ≠ 0

theorem Ids.obtains (h : Ids R) (hobt : R.Obtains o id R') :
    (id = invalidId ∧ R.refObjectDB.free = 0 ∧ R' = R) ∨ (R.Free id ∧ R' = R.grant o id) := by
  obtain ⟨r, hr, hid, hR'⟩ := hobt
  rcases allocId_ok hr with ⟨hfree, rfl⟩ | ⟨hfree, k, hk, hff, rfl⟩
  · obtain rfl : id = invalidId := hid
    refine Or.inl ⟨rfl, hfree, ?_⟩
    rw [hR', if_pos rfl]
  · have hlt := hff.lt_size h.balanced hfree
    have htoNat : (BitVec.ofNat 32 k).toNat = k :=
      Nat.mod_eq_of_lt (hlt.trans R.refObjectDB.size.isLt)
    obtain rfl : id = BitVec.ofNat 32 k := hid
    have hnot : ¬ R.refObjectDB.Active (BitVec.ofNat 32 k) := fun hact => by
      have := hact.2
      rw [htoNat, hff.1] at this
      cases this
    have hne : BitVec.ofNat 32 k ≠ invalidId := fun heq => by
      have hact : (R.refObjectDB.take k).Active (BitVec.ofNat 32 k) :=
        (active_take hk hlt _).mpr (Or.inr htoNat)
      have haddr : (R.refObjectDB.take k).Addressable := h.addressable
      exact not_active_invalidId haddr (heq ▸ hact)
    refine Or.inr ⟨⟨hne, hnot, by rwa [htoNat], by rw [htoNat]; exact hff.1, by rwa [htoNat],
      hfree⟩, ?_⟩
    rw [hR', if_neg hne, grant, htoNat]

theorem Free.active_grant (hf : R.Free id) (j : VMAccelId) :
    (R.grant o id).refObjectDB.Active j ↔ R.refObjectDB.Active j ∨ j = id := by
  change (R.refObjectDB.take id.toNat).Active j ↔ _
  rw [active_take hf.index_lt hf.lt_size, BitVec.toNat_inj]

theorem Free.release_grant (hf : R.Free id) : (R.grant o id).release o id = R := by
  have hdb : (R.refObjectDB.take id.toNat).give id.toNat = R.refObjectDB :=
    give_take hf.index_lt hf.bit_clear
  rw [release]
  simp only [grant, List.erase_cons_head, hdb]

theorem Ids.grant (h : Ids R) (hf : R.Free id) : Ids (R.grant o id) where
  balanced := h.balanced.take hf.index_lt hf.bit_clear hf.lt_size hf.free_ne_zero
  addressable := h.addressable
  held_active p hp := by
    rw [hf.active_grant]
    rcases List.mem_cons.mp hp with rfl | hp
    · exact Or.inr rfl
    · exact Or.inl (h.held_active p hp)
  nodup := by
    refine List.nodup_cons.mpr ⟨fun hmem => ?_, h.nodup⟩
    obtain ⟨p, hp, rfl : p.2 = id⟩ := List.mem_map.mp hmem
    exact hf.not_active (h.held_active p hp)
  context_held n id' hn := (h.context_held n id' hn).imp_right (List.mem_cons_of_mem _)
  surface_held k id' hk := (h.surface_held k id' hk).imp_right (List.mem_cons_of_mem _)

theorem Ids.of_obtains (h : Ids R) (hobt : R.Obtains o id R') : Ids R' := by
  rcases h.obtains hobt with ⟨-, -, rfl⟩ | ⟨hf, rfl⟩
  · exact h
  · exact h.grant hf

theorem Ids.mem_release (h : Ids R) {p : Holder × VMAccelId} :
    p ∈ (R.release o id).held ↔ p ≠ (o, id) ∧ p ∈ R.held :=
  (List.Nodup.of_map _ h.nodup).mem_erase_iff

theorem active_release (hact : R.refObjectDB.Active id) (j : VMAccelId) :
    (R.release o id).refObjectDB.Active j ↔ R.refObjectDB.Active j ∧ j ≠ id := by
  change (R.refObjectDB.give id.toNat).Active j ↔ _
  rw [active_give (bit_lt_length hact.2), ne_eq, ne_eq, BitVec.toNat_inj]

theorem Ids.eq_of_held (h : Ids R) {p q : Holder × VMAccelId} (hp : p ∈ R.held) (hq : q ∈ R.held)
    (heq : p.2 = q.2) : p = q := List.inj_on_of_nodup_map h.nodup hp hq heq

theorem Ids.release (h : Ids R) (hheld : (o, id) ∈ R.held)
    (hcontext : ∀ n, R.contexts[n]? = some (some id) → o ≠ .context n)
    (hsurface : ∀ k, R.surfaces[k]? = some (some id) → o ≠ .surface k) :
    Ids (R.release o id) where
  balanced := h.balanced.give (h.held_active _ hheld).2
  addressable := h.addressable
  held_active p hp := by
    obtain ⟨hne, hp⟩ := h.mem_release.mp hp
    refine (active_release (h.held_active _ hheld) p.2).mpr ⟨h.held_active p hp, fun heq => ?_⟩
    exact hne (h.eq_of_held hp hheld heq)
  nodup := h.nodup.sublist (List.erase_sublist.map _)
  context_held n id' hn := by
    refine (h.context_held n id' hn).imp_right fun hmem => h.mem_release.mpr ⟨?_, hmem⟩
    rintro heq
    obtain ⟨rfl, rfl⟩ := Prod.mk.inj heq
    exact hcontext n hn rfl
  surface_held k id' hk := by
    refine (h.surface_held k id' hk).imp_right fun hmem => h.mem_release.mpr ⟨?_, hmem⟩
    rintro heq
    obtain ⟨rfl, rfl⟩ := Prod.mk.inj heq
    exact hsurface k hk rfl

theorem getElem?_snoc {α : Type} {l : List α} {a b : α} {i : ℕ} (h : (l ++ [a])[i]? = some b) :
    l[i]? = some b ∨ (i = l.length ∧ a = b) := by
  rcases Nat.lt_trichotomy i l.length with hlt | rfl | hgt
  · rw [List.getElem?_append_left hlt] at h
    exact Or.inl h
  · rw [List.getElem?_concat_length] at h
    exact Or.inr ⟨rfl, Option.some.inj h⟩
  · rw [List.getElem?_eq_none (by simp; omega)] at h
    cases h

theorem Ids.addContext (h : Ids R) {o : Option VMAccelId}
    (hheld : ∀ id ∈ o, id = invalidId ∨ (.context R.contexts.length, id) ∈ R.held) :
    Ids { R with contexts := R.contexts ++ [o] } :=
  { h with
    context_held := fun n id hn => by
      rcases getElem?_snoc hn with hn | ⟨rfl, rfl⟩
      · exact h.context_held n id hn
      · exact hheld id rfl }

theorem Ids.addSurface (h : Ids R)
    (hheld : id = invalidId ∨ (.surface R.surfaces.length, id) ∈ R.held) :
    Ids { R with surfaces := R.surfaces ++ [some id] } :=
  { h with
    surface_held := fun k id' hk => by
      rcases getElem?_snoc hk with hk | ⟨rfl, heq⟩
      · exact h.surface_held k id' hk
      · exact Option.some.inj heq ▸ hheld }

theorem Ids.dropContext (h : Ids R) (n : ℕ) : Ids { R with contexts := R.contexts.set n none } :=
  { h with context_held := fun m id hm => h.context_held m id (getElem?_set_none hm).2 }

theorem Ids.dropSurface (h : Ids R) (k : ℕ) : Ids { R with surfaces := R.surfaces.set k none } :=
  { h with surface_held := fun m id hm => h.surface_held m id (getElem?_set_none hm).2 }

end VMAccel.Roster

namespace VMAccel.Accelerator

open StepSystem IdentifierDB Roster

variable {s s' : Accelerator} {o : Holder} {id : VMAccelId}

theorem roster_releaseId (h : Ids s.roster) (hheld : (o, id) ∈ s.held)
    (hr : s.releaseId o id = .ok s') : s'.roster = s.roster.release o id := by
  obtain ⟨db, hdb, hr⟩ := bind_eq_ok.mp hr
  cases hr
  have hact : s.refObjectDB.Active id := h.held_active _ hheld
  rw [releaseId_of_active hact] at hdb
  cases hdb
  rfl

theorem roster_releaseId_invalidId (h : Ids s.roster) (hr : s.releaseId o invalidId = .ok s') :
    s'.roster = s.roster := by
  obtain ⟨db, hdb, hr⟩ := bind_eq_ok.mp hr
  cases hr
  have hnot := not_active_invalidId h.addressable
  rcases releaseId_ok hdb with ⟨-, rfl⟩ | ⟨hact, -⟩
  · have herase : s.held.erase (o, invalidId) = s.held :=
      List.erase_of_not_mem fun hmem => hnot (h.held_active _ hmem)
    simp only [roster, herase]
  · exact absurd hact hnot

theorem ids_releaseId (h : Ids s.roster) (hr : s.releaseId o id = .ok s')
    (hheld : id = invalidId ∨ (o, id) ∈ s.held)
    (hcontext : ∀ n, s.roster.contexts[n]? = some (some id) → o ≠ .context n)
    (hsurface : ∀ k, s.roster.surfaces[k]? = some (some id) → o ≠ .surface k) :
    Ids s'.roster := by
  rcases hheld with rfl | hheld
  · rwa [roster_releaseId_invalidId h hr]
  · rw [roster_releaseId h hheld hr]
    exact h.release hheld hcontext hsurface

theorem ids_new : Ids new.roster where
  balanced := balanced_alloc _
  addressable := by decide
  held_active _ hp := absurd hp List.not_mem_nil
  nodup := List.nodup_nil
  context_held _ _ hn := nomatch hn
  surface_held _ _ hk := nomatch hk

theorem context_eq_of_contextId (h : Ids s.roster) {n m : ℕ} {c d : ClContext}
    (hc : s.contexts[n]? = some (some c)) (hd : s.contexts[m]? = some (some d))
    (heq : c.contextId = d.contextId) (hne : c.contextId ≠ invalidId) : n = m := by
  have hheld : ∀ {i : ℕ} {e : ClContext}, s.contexts[i]? = some (some e) →
      e.contextId = invalidId ∨ (.context i, e.contextId) ∈ s.roster.held := fun he =>
    h.context_held _ _ (by simp only [roster, List.getElem?_map, he]; rfl)
  have hc := (hheld hc).resolve_left hne
  have hd := (hheld hd).resolve_left (heq ▸ hne)
  exact Holder.context.inj (Prod.mk.inj (h.eq_of_held hc hd heq)).1

theorem obtains_frame {R R' : Roster} {o : Holder} {id : VMAccelId} (h : R.Obtains o id R') :
    R'.contexts = R.contexts ∧ R'.surfaces = R.surfaces ∧
      (id = invalidId ∨ (o, id) ∈ R'.held) := by
  obtain ⟨r, -, -, rfl⟩ := h
  refine ⟨rfl, rfl, ?_⟩
  by_cases hid : id = invalidId
  · exact Or.inl hid
  · exact Or.inr (by simp [hid])

theorem ids_step (h : Ids s.roster) {a : Action × Wire}
    (hlost : a.1.createsContext → ¬ a.2.losesQueue)
    (hr : s.step a = .ok s') : Ids s'.roster := by
  obtain ⟨⟨t, rel⟩, hact, hr⟩ := bind_eq_ok.mp hr
  have hmove : Move a s.roster t.roster rel :=
    act_move (s := { s with sent := [] }) rfl hact
  generalize ht : t.roster = T at hmove
  cases hmove with
  | same =>
    cases hr
    rwa [ht]
  | kernelId hk hobt =>
    cases hr
    rw [ht]
    exact h.of_obtains hobt
  | context ha hobt =>
    cases hr
    rw [ht]
    obtain ⟨hcontexts, -, hheld⟩ := obtains_frame hobt
    exact (h.of_obtains hobt).addContext fun _ heq => by
      cases heq
      rwa [hcontexts]
  | contextRefused ha hobt =>
    obtain ⟨hcontexts, -, hheld⟩ := obtains_frame hobt
    have hids : Ids t.roster := ht ▸ (h.of_obtains hobt).addContext nofun
    refine ids_releaseId hids hr (by change _ ∨ _ ∈ t.roster.held; rwa [ht]) ?_ nofun
    rintro n hn heq
    cases heq
    rw [ht, ← hcontexts, List.getElem?_concat_length] at hn
    cases hn
  | contextFailed ha hlost' hobt => exact absurd hlost' (hlost ha)
  | contextGone ha =>
    cases hr
    rw [ht]
    exact h.dropContext _
  | surface ha hobt =>
    cases hr
    rw [ht]
    obtain ⟨-, hsurfaces, hheld⟩ := obtains_frame hobt
    exact (h.of_obtains hobt).addSurface (by rwa [hsurfaces])
  | @surfaceGone k id hk =>
    have hids : Ids t.roster := ht ▸ h.dropSurface k
    have hheld := h.surface_held k id hk
    refine ids_releaseId hids hr (by change _ ∨ _ ∈ t.roster.held; rwa [ht]) nofun ?_
    rintro m hm heq
    cases heq
    rw [ht] at hm
    exact (getElem?_set_none hm).1 rfl
  | kernel =>
    cases hr
    rw [ht]
    exact { h with }
  | kernelGone ha =>
    cases hr
    rw [ht]
    exact { h with }

end VMAccel.Accelerator
