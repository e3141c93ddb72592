import Gusto.Escrow.Covered
import Gusto.Escrow.Concurrent
import Gusto.Order.Placement
import Gusto.Order.Holds
import Gusto.Order.Cart
import Gusto.Order.Population
import Gusto.Order.Charge
import Gusto.Workflow.Decision
import Gusto.Workflow.Cycle
import Gusto.Hacker.Optimal
import Gusto.Escrow.Ledger
import Gusto.Escrow.Plan
import Gusto.Hacker.Result
import Gusto.Hacker.Sound
import Gusto.Hacker.Books
import Gusto.Events.Envelope
import Gusto.Events.Redelivery
import Gusto.Scout.Graph
import Gusto.Workflow.Diet
import Gusto.Scheduler.Finalize
import Gusto.Workflow.Swaps
import Gusto.Mcp.RateLimiter
import Gusto.Mcp.Reads
import Gusto.Mcp.Isolation
import Gusto.Scheduler.Triggers
import Gusto.Scheduler.Overlap
import Gusto.Events.Failure
import Gusto.Auth.Linked
import Gusto.Auth.Logout
import Gusto.Notification.Menus
import Gusto.Escrow.Rollover
import Gusto.Hacker.Reorder
import Gusto.Hacker.Room
import Gusto.Order.Delivery
import Gusto.Order.Affordable
import Gusto.Notification.Endpoint
import Gusto.Workflow.Requests
import Gusto.Workflow.Budget
import Gusto.Scout.Nodes
import Gusto.Hacker.Malformed
import Gusto.Mcp.Quota
import Gusto.Mcp.Routes
import Gusto.Mcp.Flush
import Gusto.Mcp.Retries
import Gusto.Auth.TokenVault
import Gusto.Auth.Handover
import Gusto.Events.Poll
import Gusto.Escrow.Isolated
import Gusto.Workflow.Isolated
import Gusto.Mcp.Freshness
import Gusto.Order.Interleaved
import Gusto.Meal.Counted
import Gusto.Mcp.Own
import Gusto.Meal.Proposed
import Gusto.Notification.Delivered
import Gusto.Gateway.Revoked
import Gusto.Gateway.Entrance
import Gusto.Mcp.Admitted
