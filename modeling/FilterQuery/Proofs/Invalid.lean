import FilterQuery.Proofs.Foreign
import FilterQuery.Request.Basic
import FilterQuery.Settings.Provider

namespace FilterQuery

variable {issues : List Issue}

/-- A failure of neither step is none of the two in a row. -/
theorem Foreign.not_bind {α β : Type} {x : Except Failure α} {f : α → Except Failure β} {failure : Failure}
    (hx : ¬ Foreign x failure) (hf : ∀ a, ¬ Foreign (f a) failure) : ¬ Foreign (x >>= f) failure := by
  rw [bind_iff]
  rintro (h | ⟨a, _, h⟩)
  · exact hx h
  · exact hf a h

theorem Extras.offers_not_invalid (e : Extras) (operation : Text) :
    ¬ Foreign (e.offers operation) (.invalid issues) := by
  unfold offers
  split <;> simp [Foreign]

theorem Extras.assign_not_invalid (e : Extras) (owner name : Text) (v : Value) :
    ¬ Foreign (e.assign owner name v) (.invalid issues) := by
  unfold assign
  repeat' split
  all_goals simp [Foreign]

theorem Held.assign_not_invalid (h : Held) (member text : Text) :
    ¬ Foreign (h.assign member text) (.invalid issues) := by
  unfold assign
  split
  · exact Foreign.ok
  · rw [Foreign.map_iff]
    exact Extras.assign_not_invalid _ _ _ _

namespace Request

variable (r : Request) (s : Settings)

theorem held_not_invalid (part : Option Value) : ¬ Foreign (held part) (.invalid issues) := by
  unfold held
  split <;> simp [Foreign]

theorem partText_not_invalid (v : Value) : ¬ Foreign (partText v) (.invalid issues) := by
  unfold partText
  split
  · exact Foreign.ok
  · rw [Foreign.map_iff, Value.plain?]
    split <;> simp [Foreign]

theorem itemToken_not_invalid (v : Value) : ¬ Foreign (itemToken v) (.invalid issues) := by
  unfold itemToken
  split <;> simp [Foreign]

theorem specification_not_invalid (v : Value) : ¬ Foreign (specification v) (.invalid issues) := by
  unfold specification
  split
  · exact Foreign.ok
  · exact Foreign.ok
  apply Foreign.not_bind
  · unfold sortItems
    repeat' split
    all_goals simp [Foreign]
  intro items
  refine Foreign.not_bind ?_ fun _ => Foreign.ok
  rw [Foreign.mapM_iff]
  rintro ⟨_, v, _, _, _, h⟩
  exact itemToken_not_invalid v h

theorem sortToken_not_invalid : ¬ Foreign r.sortToken (.invalid issues) :=
  Foreign.not_bind (r.extras.offers_not_invalid _) fun _ =>
    Foreign.not_bind (held_not_invalid _) specification_not_invalid

/-- Writing the query string of a request, valid or not, finds no field invalid. -/
theorem queryString_not_invalid : ¬ Foreign (r.queryString s) (.invalid issues) := by
  unfold queryString
  apply Foreign.not_bind (r.extras.offers_not_invalid _)
  intro _
  apply Foreign.not_bind (held_not_invalid _)
  intro filter
  apply Foreign.not_bind (partText_not_invalid filter)
  intro _
  apply Foreign.not_bind r.sortToken_not_invalid
  intro _
  apply Foreign.not_bind (held_not_invalid _)
  intro limit
  exact Foreign.not_bind (partText_not_invalid limit) fun _ => Foreign.ok

theorem url_not_invalid (base : Text) : ¬ Foreign (r.url base s) (.invalid issues) :=
  Foreign.not_bind (r.extras.offers_not_invalid _) fun _ =>
    Foreign.not_bind (r.queryString_not_invalid s) fun _ => Foreign.ok

end Request

end FilterQuery
