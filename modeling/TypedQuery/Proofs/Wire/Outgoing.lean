import TypedQuery.Proofs.Fragment.Placeholder
import TypedQuery.Wire.Backend

/-!
# The two ways to send a statement

A statement goes out either prepared, with numbered placeholders and their parameters, or as one
text with all values written out.  Both spell the same statement: the literals of the parameters,
put where the placeholders stand, give the text with all values written out.
-/

namespace TypedQuery
namespace Wire

theorem ofCommand_single (f : Fragment) :
    Outgoing.ofCommand (.single f) = .prepared (f.renderWith (.bound .dollar)) ∨
      Outgoing.ofCommand (.single f) = .simple f.renderSimple := by
  unfold Outgoing.ofCommand
  by_cases hprepared : (Command.single f).size = 1 ∧
      ¬ ((Command.single f).render (.bound .dollar)).params.isEmpty ∧
      ((Command.single f).render (.bound .dollar)).params.values.all isBindable
  · exact Or.inl (if_pos hprepared)
  · exact Or.inr (if_neg hprepared)

/-- For every fragment and either sign: the bound rendering with each placeholder filled by the
literal of its parameter is the simple rendering, which has no parameters; and whichever way a
command of this one statement is sent, it is that statement. -/
theorem bound_rendering_filled_eq_simple (f : Fragment) (p : Placeholder) :
    Mark.text p f.marks = (f.renderWith (.bound p)).sql ∧
      Mark.fill? (f.renderWith (.bound p)).params f.marks = some (f.renderWith .simple).sql ∧
      (f.renderWith .simple).params.values = [] ∧
      (match Outgoing.ofCommand (.single f) with
        | .prepared sent =>
            Mark.text .dollar f.marks = sent.sql ∧
              Mark.fill? sent.params f.marks = some f.renderSimple
        | .simple sent => sent = f.renderSimple) := by
  have htext : forall q : Placeholder,
      Mark.text q f.marks = (f.renderWith (.bound q)).sql := by
    intro q
    rw [Fragment.renderWith_bound]
  have hfill : forall q : Placeholder,
      Mark.fill? (f.renderWith (.bound q)).params f.marks = some f.renderSimple := by
    intro q
    rw [Fragment.renderWith_bound]
    exact f.fill?_marks
  refine ⟨htext p, hfill p, by rw [Fragment.renderWith_simple], ?_⟩
  cases ofCommand_single f with
  | inl hprepared =>
      rw [hprepared]
      exact ⟨htext .dollar, hfill .dollar⟩
  | inr hsimple =>
      rw [hsimple]

end Wire
end TypedQuery
