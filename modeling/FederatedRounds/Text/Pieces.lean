/-! Cutting a text at every occurrence of a separator. -/
namespace FederatedRounds.Text

/-- The pieces between the separators, at least one. -/
def pieces (separator : Char) : List Char → List (List Char)
  | [] => [[]]
  | c :: rest =>
    if c = separator then [] :: pieces separator rest
    else
      match pieces separator rest with
      | piece :: others => (c :: piece) :: others
      | [] => [[c]]

end FederatedRounds.Text
