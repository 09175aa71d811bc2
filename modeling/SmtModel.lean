import SmtModel.Client
import SmtModel.Json.Report
import SmtModel.Override
import SmtModel.Scripted.Script
import SmtModel.Proofs.Scripted.Errors
import SmtModel.Proofs.Scripted.Injection
import SmtModel.Proofs.Scripted.Stability
import SmtModel.Proofs.Keys
import SmtModel.Proofs.Scripted.Clearing
import SmtModel.Proofs.Scripted.Verdicts
import SmtModel.Proofs.Scripted.Getters
import SmtModel.Proofs.Scripted.Rebuilding
import SmtModel.Proofs.Limits
import SmtModel.Proofs.Scripted.Faults
import SmtModel.Proofs.Scripted.Constants
import SmtModel.Proofs.Json.Forms
import SmtModel.Proofs.Scripted.Typing
import SmtModel.Proofs.Equivalence
import SmtModel.Proofs.LastWrite
import SmtModel.Proofs.Scripted.Pairing
import SmtModel.Proofs.Scripted.Visiting
import SmtModel.Proofs.Scripted.Footprint
import SmtModel.Proofs.Display
import SmtModel.Proofs.Scripted.Truths
import SmtModel.Proofs.Scripted.Words
import SmtModel.Proofs.Congruence
