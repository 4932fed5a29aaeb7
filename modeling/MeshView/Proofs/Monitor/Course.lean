/-
# Reports one after another, on any schedule

While a mesh is told of, a monitor takes one report after another, and after each it goes on by itself
until it rests.  In which order it absorbs, asks and gets its answers meanwhile is left to the schedule:
a `Course` fixes the reports and the mesh that answers, and of the monitor no more than that it rests in
between.

No course can be without an end.  A node of a mesh names no neighbour twice, so there are no rivals, and
so a monitor that takes the next report makes finitely many moves, whatever their order
(`Course.settles`).
-/

import MeshView.Proofs.Mesh.Play
import MeshView.Proofs.Monitor.Quiescence

namespace MeshView

namespace Mesh

/-- Reports one after another while the mesh stays as it is. -/
def telling (g : Mesh) (reports : List Report) : List (Mesh × Option Report) :=
  reports.map fun r => (g, some r)

/-- The mesh after each of the events, with the report that it raises. -/
def happenings (g : Mesh) : List (Event NodeId) → List (Mesh × Option Report)
  | [] => []
  | event :: events => g.play event :: (g.play event).1.happenings events

theorem happenings_append (g : Mesh) (events events' : List (Event NodeId)) :
    g.happenings (events ++ events') =
      g.happenings events ++ (g.playAll events).happenings events' := by
  induction events generalizing g with
  | nil => rfl
  | cons event events ih => exact congrArg _ (ih _)

/-- No two nodes of a mesh are rivals, since they name no neighbour with two costs. -/
theorem not_rivals (g : Mesh) (localId : NodeId) : ¬ Rivals g.answer localId := by
  rintro ⟨x, a, -, -, hx, -⟩
  obtain ⟨list, c, c', hanswer, hc, hc', hne⟩ := hx.wavers
  exact hne (congrArg Prod.snd
    (List.inj_on_of_nodup_map (neighbors_nodup_of_answer hanswer) hc hc' rfl))

end Mesh

namespace Monitor

/-- With a report, if there is one, the monitor comes to rest by itself; then comes the next one. -/
inductive Course : List (Mesh × Option Report) → Monitor → Monitor → Prop
  | nil (m : Monitor) : Course [] m m
  | cons {x : Mesh × Option Report} {steps : List (Mesh × Option Report)} {m n m' : Monitor}
      (hrests : Rests x.1.answer (x.2.elim m m.offer) n) (hcourse : Course steps n m') :
      Course (x :: steps) m m'

variable {steps steps' : List (Mesh × Option Report)} {tells tells' : NodeId → Answer → Prop}
  {localId : NodeId} {m m' n : Monitor}

theorem Course.append (h : Course steps m n) (h' : Course steps' n m') :
    Course (steps ++ steps') m m' := by
  induction h with
  | nil m => exact h'
  | cons hrests _ ih => exact .cons hrests (ih h')

theorem Course.exists_between (h : Course (steps ++ steps') m m') :
    ∃ n, Course steps m n ∧ Course steps' n m' := by
  induction steps generalizing m with
  | nil => exact ⟨m, .nil m, h⟩
  | cons x steps ih =>
    cases h with
    | cons hrests hcourse =>
      obtain ⟨n, hfirst, hsecond⟩ := ih hcourse
      exact ⟨n, .cons hrests hfirst, hsecond⟩

/-- A course of one step. -/
theorem Course.single {x : Mesh × Option Report} (hrests : Rests x.1.answer (x.2.elim m m.offer) m') :
    Course [x] m m' := .cons hrests (.nil m')

/-- It ends at rest, if it starts there. -/
theorem Course.quiescent (h : Course steps m m') (hrest : m.Quiescent) : m'.Quiescent := by
  induction h with
  | nil m => exact hrest
  | cons hrests _ ih => exact ih hrests.2

/-! ## Every schedule comes to an end -/

/-- With nothing waiting, it does not matter what nodes used to answer. -/
theorem Regular.of_settled (h : m.Regular tells localId) (hnil : m.inbound = []) :
    m.Regular tells' localId :=
  { h with arrived := fun d hd => by rw [hnil] at hd; cases hd }

theorem Regular.occasion (h : m.Regular tells localId) (hrest : m.Quiescent)
    (x : Mesh × Option Report) :
    (x.2.elim m m.offer).Regular (fun id a => a = x.1.answer id) localId := by
  have hsettled : m.Regular (fun id a => a = x.1.answer id) localId := h.of_settled hrest.1
  cases x.2 with
  | none => exact hsettled
  | some r => exact hsettled.perform (a := .offer r) nofun

theorem Course.regular (hcourse : Course steps m m') (h : m.Regular tells localId)
    (hrest : m.Quiescent) : m'.Regular tells localId := by
  induction hcourse with
  | nil m => exact h
  | cons hrests _ ih =>
    have hend := hrests.keeps (fun _ _ hm hmove => hm.move hmove) (h.occasion hrest _)
    exact ih (hend.of_settled hrests.2.1) hrests.2

/-- **Whatever the schedule was and is, the next report is dealt with in the end.** -/
theorem Course.settles {settings : Settings}
    (hcourse : ((start localId settings).perform .subscribe).Course steps m)
    (x : Mesh × Option Report) : Settles x.1.answer (x.2.elim m m.offer) := by
  have hrest : ((start localId settings).perform .subscribe).Quiescent := ⟨rfl, rfl, rfl⟩
  have hregular := (regular_start (fun _ _ => True) localId settings).perform (a := .subscribe) nofun
  exact ((hcourse.regular hregular hrest).occasion (hcourse.quiescent hrest) x).exists_limit fun _ =>
    x.1.not_rivals localId

end Monitor
end MeshView
