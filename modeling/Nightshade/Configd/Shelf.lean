import Mathlib
import Nightshade.Configd.Footprint

/-! The files of the archive against what has been filed in it. Steps may fail or be cut off
anywhere; the newest revisions are all there with their texts, and nothing is listed that was not
filed. -/
namespace Nightshade.Configd
open Foundation Schema

/-- The archive holds nothing but what was filed, newest first, and the newest of it in full. -/
structure Shelved {H : Type} (schema : Schema) (box : Box H) (filed : List (RevisionInfo × ConfigTree)) :
    Prop where
  descending : filed.Pairwise (fun a b => b.1.revision < a.1.revision)
  listed : ∀ stem info, box.infos.get? stem = some info → info.stem = stem ∧ ∃ f ∈ filed, f.1 = info
  kept : ∀ f ∈ filed.take KEEP, box.infos.get? f.1.stem = some f.1 ∧
    box.revisions.get? f.1.stem = some (render f.2 (tagOracle schema))
  texts : ∀ f ∈ filed, ∀ text, box.revisions.get? f.1.stem = some text →
    text = render f.2 (tagOracle schema)

section
variable {H F : Type} {site : Site H F} {schema : Schema} {box : Box H}
  {filed : List (RevisionInfo × ConfigTree)}

theorem stem_revision {info info' : RevisionInfo} (h : info.stem = info'.stem) :
    info.revision = info'.revision :=
  congrArg (fun s : Stem => (ofLex s).1) h

theorem Shelved.empty (host : H) (saved : Option String) :
    Shelved schema (Box.fresh host saved) [] :=
  ⟨List.Pairwise.nil,nofun,nofun,nofun⟩

theorem Shelved.frame {box' : Box H} (h : Shelved schema box filed) (hinfos : box'.infos = box.infos)
    (hrevisions : box'.revisions = box.revisions) : Shelved schema box' filed :=
  ⟨h.descending,by rw [hinfos]; exact h.listed,by rw [hinfos,hrevisions]; exact h.kept,
    by rw [hrevisions]; exact h.texts⟩

theorem stem_ne_of_drop (h : Shelved schema box filed) {f g : RevisionInfo × ConfigTree}
    (hf : f ∈ filed.take KEEP) (hg : g ∈ filed.drop KEEP) : f.1.stem ≠ g.1.stem := by
  intro heq
  have hlt := (List.pairwise_append.mp ((List.take_append_drop KEEP filed).symm ▸ h.descending)).2.2 f hf g hg
  exact hlt.ne' (stem_revision heq)

/-! ### Writing and removing -/

theorem Shelved.writeRevision (h : Shelved schema box filed) {info : RevisionInfo} (text : String)
    (hnew : ∀ f ∈ filed, f.1.revision < info.revision) :
    Shelved schema {box with revisions := box.revisions.insert info.stem text} filed := by
  have hne : ∀ f ∈ filed, f.1.stem ≠ info.stem := fun f hf heq =>
    (hnew f hf).ne (stem_revision heq)
  refine ⟨h.descending,h.listed,fun f hf => ⟨(h.kept f hf).1,?_⟩,fun f hf text' htext => ?_⟩
  · rw [SortedMap.get?_insert,if_neg (hne f (List.mem_of_mem_take hf))]
    exact (h.kept f hf).2
  · rw [SortedMap.get?_insert,if_neg (hne f hf)] at htext
    exact h.texts f hf text' htext

theorem Shelved.writeInfo (h : Shelved schema box filed) {info : RevisionInfo} {config : ConfigTree}
    (hnew : ∀ f ∈ filed, f.1.revision < info.revision)
    (htext : box.revisions.get? info.stem = some (render config (tagOracle schema))) :
    Shelved schema {box with infos := box.infos.insert info.stem info} ((info,config)::filed) := by
  have hne : ∀ f ∈ filed, f.1.stem ≠ info.stem := fun f hf heq =>
    (hnew f hf).ne (stem_revision heq)
  refine ⟨List.pairwise_cons.mpr ⟨hnew,h.descending⟩,fun stem info' hget => ?_,?_,?_⟩
  · rw [SortedMap.get?_insert] at hget
    split_ifs at hget with hstem
    · cases hget
      exact ⟨hstem.symm,_,List.mem_cons_self,rfl⟩
    · obtain ⟨hstem',f,hf,hinfo⟩ := h.listed stem info' hget
      exact ⟨hstem',f,List.mem_cons_of_mem _ hf,hinfo⟩
  · rw [show KEEP = 49+1 from rfl,List.take_succ_cons]
    refine List.forall_mem_cons.mpr ⟨⟨by simp,htext⟩,fun f hf => ?_⟩
    have hf' : f ∈ filed.take KEEP :=
      (List.take_prefix_take_left (by decide : 49 ≤ KEEP)).subset hf
    rw [SortedMap.get?_insert,if_neg (hne f (List.mem_of_mem_take hf))]
    exact h.kept f hf'
  · refine List.forall_mem_cons.mpr ⟨fun text hget => ?_,h.texts⟩
    rw [htext] at hget
    exact (Option.some_inj.mp hget).symm

theorem Shelved.removeRevision (h : Shelved schema box filed) {g : RevisionInfo × ConfigTree}
    (hg : g ∈ filed.drop KEEP) :
    Shelved schema {box with revisions := box.revisions.erase g.1.stem} filed := by
  refine ⟨h.descending,h.listed,fun f hf => ⟨(h.kept f hf).1,?_⟩,fun f hf text htext => ?_⟩
  · rw [SortedMap.get?_erase,if_neg (stem_ne_of_drop h hf hg)]
    exact (h.kept f hf).2
  · rw [SortedMap.get?_erase] at htext
    split_ifs at htext
    exact h.texts f hf text htext

theorem Shelved.removeInfo (h : Shelved schema box filed) {g : RevisionInfo × ConfigTree}
    (hg : g ∈ filed.drop KEEP) :
    Shelved schema {box with infos := box.infos.erase g.1.stem} filed := by
  refine ⟨h.descending,fun stem info hget => ?_,fun f hf => ⟨?_,(h.kept f hf).2⟩,h.texts⟩
  · rw [SortedMap.get?_erase] at hget
    split_ifs at hget
    exact h.listed stem info hget
  · rw [SortedMap.get?_erase,if_neg (stem_ne_of_drop h hf hg)]
    exact (h.kept f hf).1

/-! ### What the archive's programs do to the shelf -/

variable {allowed : Effect → Fate F → Box H → Prop}

end
end Nightshade.Configd
