import FederatedRounds.Proofs.Json.Layout
import FederatedRounds.Proofs.Json.Literal

/-! Every JSON value is read back from the text that is written for it. The text is a row of the tokens
of the value, because nothing follows a number that could belong to it. -/
namespace FederatedRounds.Json
open Digit (Stops)

def textOf (tokens : List Token) : List Char := tokens.flatMap Token.text

theorem textOf_append (first rest : List Token) :
    textOf (first ++ rest) = textOf first ++ textOf rest := List.flatMap_append

theorem stops_itemTokens (items : List Json) {rest : List Char} (stops : Stops rest) :
    Stops (textOf (itemTokens false items) ++ rest) := by
  cases items with
  | nil => exact stops
  | cons item others => exact stops_cons rfl _

theorem stops_memberTokens (members : List Member) {rest : List Char} (stops : Stops rest) :
    Stops (textOf (memberTokens false members) ++ rest) := by
  cases members with
  | nil => exact stops
  | cons member others => exact stops_cons rfl _

/-- Tokens and the text that is written for them, before tokens and a text that consists of them. -/
theorem Laid.fixed {token : Token} {tokens : List Token} {rest : List Char}
    (one : token.isFixed = true) (laid : Laid tokens rest) :
    Laid (token :: tokens) (textOf [token] ++ rest) := by
  rw [textOf, List.flatMap_singleton]
  refine .token (.fixed one) ?_ laid
  rintro _ rfl
  cases one

theorem Laid.separator (first : Bool) {tokens : List Token} {rest : List Char}
    (laid : Laid tokens rest) :
    Laid ((if first then [] else [.comma]) ++ tokens)
      (textOf (if first then [] else [.comma]) ++ rest) := by
  cases first with
  | true => exact laid
  | false => exact laid.fixed rfl

mutual

theorem laid_toTokens (value : Json) {tokens : List Token} {rest : List Char}
    (laid : Laid tokens rest) (stops : Stops rest) :
    Laid (value.toTokens ++ tokens) (textOf value.toTokens ++ rest) := by
  cases value with
  | array items =>
    have closed : Laid (.closeArray :: tokens) (textOf [.closeArray] ++ rest) := laid.fixed rfl
    have filled := laid_itemTokens true items closed (stops_cons rfl _)
    have opened : Laid _ (textOf [.openArray] ++ _) := filled.fixed rfl
    rw [toTokens, ← List.singleton_append, textOf_append, textOf_append]
    simpa using opened
  | object members =>
    have closed : Laid (.closeObject :: tokens) (textOf [.closeObject] ++ rest) := laid.fixed rfl
    have filled := laid_memberTokens true members closed (stops_cons rfl _)
    have opened : Laid _ (textOf [.openObject] ++ _) := filled.fixed rfl
    rw [toTokens, ← List.singleton_append, textOf_append, textOf_append]
    simpa using opened
  | _ =>
    rw [toTokens, textOf, List.flatMap_singleton]
    exact .token (Token.text_spelling _) (fun _ _ => stops) laid

theorem laid_itemTokens (first : Bool) (items : List Json) {tokens : List Token} {rest : List Char}
    (laid : Laid tokens rest) (stops : Stops rest) :
    Laid (itemTokens first items ++ tokens) (textOf (itemTokens first items) ++ rest) := by
  cases items with
  | nil => exact laid
  | cons item others =>
    have after := laid_itemTokens false others laid stops
    have all := (laid_toTokens item after (stops_itemTokens others stops)).separator first
    rw [itemTokens, textOf_append, textOf_append]
    simpa using all

theorem laid_memberTokens (first : Bool) (members : List Member) {tokens : List Token}
    {rest : List Char} (laid : Laid tokens rest) (stops : Stops rest) :
    Laid (memberTokens first members ++ tokens) (textOf (memberTokens first members) ++ rest) := by
  cases members with
  | nil => exact laid
  | cons member others =>
    obtain ⟨key, value⟩ := member
    have after := laid_memberTokens false others laid stops
    have valued := laid_toTokens value after (stops_memberTokens others stops)
    have colon : Laid _ (textOf [.colon] ++ _) := valued.fixed rfl
    have named := Laid.token (quoted_spelling key) nofun colon
    have all := named.separator first
    rw [memberTokens, textOf_append, textOf_append]
    simpa [textOf, Token.text] using all

end

theorem written_render (value : Json) : Written value value.render := by
  have laid := laid_toTokens value .done nofun
  rw [List.append_nil, List.append_nil] at laid
  rw [Written, render, String.toList_ofList]
  exact laid

theorem parse?_render (value : Json) : parse? value.render = some value :=
  parse?_eq_some_iff.mpr (written_render value)

end FederatedRounds.Json
