import IdMint.Main
import IdMint.Proofs.Calendar
import IdMint.Proofs.CommandLine.Acceptance
import IdMint.Proofs.CommandLine.Decoding
import IdMint.Proofs.CommandLine.Issuing
import IdMint.Proofs.Decimal.Reading
import IdMint.Proofs.Defaults
import IdMint.Proofs.Luhn.Slips
import IdMint.Proofs.Numerals.Lossy
import IdMint.Proofs.Numerals.Order
import IdMint.Proofs.Record
import IdMint.Proofs.ShortId.Filler
import IdMint.Proofs.ShortId.Legible
import IdMint.Proofs.ShortId.Rollback
import IdMint.Proofs.Shuffle
import IdMint.Proofs.TimeId.Fields
import IdMint.Proofs.TimeId.Issued
import IdMint.Proofs.TimeId.Order
import IdMint.Proofs.TimeId.Parsing
import IdMint.Proofs.TimeId.Poisoning
import IdMint.Proofs.TimeId.Rendering
import IdMint.Proofs.TimeId.Sequences
import IdMint.Proofs.TimeId.Sorting
import IdMint.Proofs.TimeId.Uniqueness
import IdMint.Proofs.Tray.Reading
